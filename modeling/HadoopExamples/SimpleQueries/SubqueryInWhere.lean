import HadoopExamples.Library.Sql

set_option autoImplicit false

/-! # IN against LEFT SEMI JOIN

`subquery_in_where.sql` asks in two ways for the customers with an order in 2012, the same text for
Hive and for Impala. Where there are NULLs the two conditions do not evaluate alike: the list of an
`IN` may hold a NULL, and then what it does not find is unknown instead of false. By
`in_eq_leftSemiJoin` this makes no difference to the customers. -/

namespace HadoopExamples.SubqueryInWhere

/-- A row of `he.customers`. -/
structure Customer where
  cust_id : Option String

/-- A row of `he.orders`. -/
structure Order where
  cust_id : Option String
  order_date : Option String

section Queries

/- `YEAR` of a text; NULL if it is not a date. -/
variable (year : String → Option ℤ)

/-- `YEAR(o.order_date) = 2012` -/
def in2012 (o : Order) : Sql.Truth := Sql.eq (o.order_date.bind year) (some 2012)

/-- `SELECT o.cust_id FROM he.orders o WHERE YEAR(o.order_date) = 2012` -/
def subquery (orders : List Order) : List (Option String) :=
  (Sql.filterWhere (in2012 year) orders).map Order.cust_id

/-- `SELECT c.cust_id FROM he.customers c WHERE cust_id IN (..)` -/
def inSubquery (customers : List Customer) (orders : List Order) : List (Option String) :=
  (Sql.filterWhere (fun c => Sql.inList c.cust_id (subquery year orders)) customers).map
    Customer.cust_id

/-- `SELECT c.cust_id FROM he.customers c LEFT SEMI JOIN he.orders o ON (..)` -/
def leftSemiJoin (customers : List Customer) (orders : List Order) : List (Option String) :=
  (Sql.leftSemiJoin (fun c o => (Sql.eq c.cust_id o.cust_id).and (in2012 year o)) customers
    orders).map Customer.cust_id

/-- Some order of the customer is in 2012. -/
def OrderedIn2012 (orders : List Order) (cust_id : Option String) : Prop :=
  cust_id.isSome = true ∧ ∃ o ∈ orders, o.cust_id = cust_id ∧ o.order_date.bind year = some 2012

instance (orders : List Order) (cust_id : Option String) :
    Decidable (OrderedIn2012 year orders cust_id) :=
  inferInstanceAs (Decidable (_ ∧ _))

end Queries

variable {year : String → Option ℤ}

theorem isTrue_in2012 {o : Order} :
    (in2012 year o).isTrue = true ↔ o.order_date.bind year = some 2012 := by
  unfold in2012
  rw [Sql.isTrue_eq, Bool.and_eq_true, decide_eq_true_eq]
  refine ⟨fun h => h.2, fun h => ⟨?_, h⟩⟩
  rw [h]
  rfl

theorem isTrue_in_iff {orders : List Order} {c : Customer} :
    (Sql.inList c.cust_id (subquery year orders)).isTrue = true ↔
      OrderedIn2012 year orders c.cust_id := by
  unfold subquery Sql.filterWhere OrderedIn2012
  rw [Sql.isTrue_inList, List.mem_map]
  simp only [List.mem_filter, isTrue_in2012]
  refine and_congr_right fun _ => exists_congr fun o => ?_
  rw [and_assoc, and_comm (a := o.cust_id = _)]

theorem any_on_iff {orders : List Order} {c : Customer} :
    (orders.any fun o => ((Sql.eq c.cust_id o.cust_id).and (in2012 year o)).isTrue) = true ↔
      OrderedIn2012 year orders c.cust_id := by
  unfold OrderedIn2012
  simp only [List.any_eq_true, Sql.isTrue_and, Bool.and_eq_true, Sql.isTrue_eq, decide_eq_true_eq,
    isTrue_in2012]
  constructor
  · rintro ⟨o, ho, ⟨hsome, heq⟩, hyear⟩
    exact ⟨hsome, o, ho, heq.symm, hyear⟩
  · rintro ⟨hsome, o, ho, heq, hyear⟩
    exact ⟨o, ho, ⟨hsome, heq.symm⟩, hyear⟩

theorem inSubquery_eq (customers : List Customer) (orders : List Order) :
    inSubquery year customers orders
      = (customers.filter fun c => OrderedIn2012 year orders c.cust_id).map Customer.cust_id := by
  unfold inSubquery Sql.filterWhere
  refine congrArg _ (List.filter_congr fun c _ => Bool.eq_iff_iff.2 ?_)
  rw [isTrue_in_iff, decide_eq_true_eq]

theorem leftSemiJoin_eq (customers : List Customer) (orders : List Order) :
    leftSemiJoin year customers orders
      = (customers.filter fun c => OrderedIn2012 year orders c.cust_id).map Customer.cust_id := by
  unfold leftSemiJoin Sql.leftSemiJoin
  refine congrArg _ (List.filter_congr fun c _ => Bool.eq_iff_iff.2 ?_)
  rw [any_on_iff, decide_eq_true_eq]

/-- Both queries return the same rows: a customer that is not NULL and has an order in 2012 as often
    as it is in `customers`, and no other. -/
theorem in_eq_leftSemiJoin (year : String → Option ℤ) (customers : List Customer)
    (orders : List Order) :
    (inSubquery year customers orders).Perm (leftSemiJoin year customers orders) ∧
    ∀ cust_id, ((inSubquery year customers orders).countP fun row => row = cust_id)
      = if OrderedIn2012 year orders cust_id then customers.countP fun c => c.cust_id = cust_id
        else 0 := by
  refine ⟨List.Perm.of_eq ((inSubquery_eq _ _).trans (leftSemiJoin_eq _ _).symm), ?_⟩
  intro cust_id
  rw [inSubquery_eq, List.countP_map, List.countP_filter]
  split
  · rename_i hordered
    refine List.countP_congr fun c _ => ?_
    simp only [Function.comp_apply, Bool.and_eq_true, decide_eq_true_eq, and_iff_left_iff_imp]
    intro hc
    rwa [hc]
  · rename_i hnot
    refine List.countP_eq_zero.2 fun c _ hc => ?_
    simp only [Function.comp_apply, Bool.and_eq_true, decide_eq_true_eq] at hc
    exact hnot (hc.1 ▸ hc.2)

/- A NULL order, a NULL customer and two orders of one customer. -/
example :
    let orders : List Order := [⟨none, some "2012"⟩, ⟨some "a", some "2012"⟩, ⟨some "a", some "2012"⟩,
      ⟨some "b", none⟩]
    let year : String → Option ℤ := fun date => if date = "2012" then some 2012 else none
    inSubquery year [⟨some "a"⟩, ⟨none⟩, ⟨some "b"⟩, ⟨some "a"⟩] orders = [some "a", some "a"] := by
  decide

end HadoopExamples.SubqueryInWhere
