import Mathlib.Data.List.Perm.Basic
import Mathlib.Data.Set.Function
import HadoopExamples.Avro.Handshake

set_option autoImplicit false

/-! # Handshakes in any order

Several requestors call one responder. With the deferred requestors of `txipc.py` a call may start
while others wait, so that requests and responses of different calls pass each other, and any of
them may get lost. Each requestor is under its own name in `REMOTE_HASHES`. -/

namespace HadoopExamples.Avro

open Python

/-! ## Messages in flight -/

section Flight

variable {α : Type} {l l' : List α} {k : ℕ} {x : α}

/-- The `k`-th message in flight, and the others. -/
def taken (l : List α) (k : ℕ) : Option (α × List α) := l[k]?.map fun x => (x, l.eraseIdx k)

theorem perm_of_taken (h : taken l k = some (x, l')) : l.Perm (x :: l') := by
  obtain ⟨y, hy, hx⟩ := Option.map_eq_some_iff.1 h
  obtain ⟨rfl, rfl⟩ := Prod.mk.inj hx
  obtain ⟨hk, rfl⟩ := List.getElem?_eq_some_iff.1 hy
  exact (List.getElem_cons_eraseIdx_perm hk).symm

theorem mem_of_taken (h : taken l k = some (x, l')) : x ∈ l :=
  (perm_of_taken h).mem_iff.2 (List.mem_cons_self ..)

theorem subset_of_taken (h : taken l k = some (x, l')) : l' ⊆ l :=
  fun _ hy => (perm_of_taken h).mem_iff.2 (List.mem_cons_of_mem _ hy)

end Flight

/-! ## The system -/

section Runs

variable {ι ν P : Type}

/-- A responder and its requestors, which `name` gives their names in `REMOTE_HASHES`. `served` is
    what the responder has read the calls with, `answered` what the requestors have read the
    responses with. -/
structure System (ι ν P : Type) where
  responder : Responder P
  requestors : ι → Requestor P
  hashes : ν → Option Hash
  requests : List (ι × HandshakeRequest)
  responses : List (ι × HandshakeResponse)
  served : List (ι × P)
  answered : List (ι × Option P)
  failures : List (ι × AvroException)
  calls : ι → ℕ
  sent : ι → ℕ

inductive Event (ι : Type) where
  | start (i : ι)
  | serve (k : ℕ)
  | deliver (k : ℕ)
  | loseRequest (k : ℕ)
  | loseResponse (k : ℕ)

namespace System

variable [DecidableEq ι] [DecidableEq ν] (protocols : Protocols P) (name : ι → ν)

/-- Before the first call. -/
def new (server : P) (clients : ι → P) : System ι ν P where
  responder := Responder.new protocols server
  requestors i := Requestor.new (clients i)
  hashes _ := none
  requests := []
  responses := []
  served := []
  answered := []
  failures := []
  calls _ := 0
  sent _ := 0

/-- `BaseRequestor.request`, which does not wait for the response. -/
def request (s : System ι ν P) (i : ι) : System ι ν P :=
  let (requestor, handshake_request) :=
    write_handshake_request protocols (s.requestors i) (s.hashes (name i))
  { s with
    requestors := Function.update s.requestors i requestor
    requests := s.requests ++ [(i, handshake_request)]
    sent := Function.update s.sent i (s.sent i + 1) }

/-- `Responder.respond`, up to the protocol that it reads the call with. A response without
    anything in it is one that the requestor cannot read. -/
def respond (s : System ι ν P) (i : ι) (handshake_request : HandshakeRequest) : System ι ν P :=
  match process_handshake protocols s.responder handshake_request with
  | .error _ => { s with failures := s.failures ++ [(i, .typeError)] }
  | .ok (remote_protocol, handshake_response, responder) =>
    { s with
      responder
      responses := s.responses ++ [(i, handshake_response)]
      served := s.served ++ (remote_protocol.map fun p => (i, p)).toList }

/-- `TwistedRequestor._process_handshake`, up to the protocol that it reads the response with. -/
def processHandshake (s : System ι ν P) (i : ι) (handshake_response : HandshakeResponse) :
    System ι ν P :=
  match read_handshake_response protocols (s.requestors i) (s.hashes (name i))
      handshake_response with
  | .error e => { s with failures := s.failures ++ [(i, e)] }
  | .ok (call_response_exists, requestor, remote_hash) =>
    let s := { s with
      requestors := Function.update s.requestors i requestor
      hashes := Function.update s.hashes (name i) remote_hash }
    if call_response_exists then
      { s with answered := s.answered ++ [(i, requestor.remote_protocol)] }
    else s.request protocols name i

def step (s : System ι ν P) : Event ι → System ι ν P
  | .start i =>
    { s.request protocols name i with calls := Function.update s.calls i (s.calls i + 1) }
  | .serve k =>
    match taken s.requests k with
    | some ((i, handshake_request), requests) =>
      { s with requests }.respond protocols i handshake_request
    | none => s
  | .deliver k =>
    match taken s.responses k with
    | some ((i, handshake_response), responses) =>
      { s with responses }.processHandshake protocols name i handshake_response
    | none => s
  | .loseRequest k => { s with requests := s.requests.eraseIdx k }
  | .loseResponse k => { s with responses := s.responses.eraseIdx k }

end System

end Runs

/-! ## What the parties know of each other -/

section Knowledge

variable {P : Type} (protocols : Protocols P) (client server : P)

/-- The requestor has the protocol of the responder, and goes on having it. -/
def Requestor.Knows (r : Requestor P) (remote_hash : Option Hash) : Prop :=
  r.remote_protocol = some server ∧ (remote_hash ≠ none ∨ client = server)

structure Requestor.Agrees (r : Requestor P) (remote_hash : Option Hash) : Prop where
  local_eq : r.local_protocol = client
  hash_eq : ∀ hash, remote_hash = some hash → hash = protocols.md5 server
  knows : remote_hash ≠ none → r.remote_protocol = some server

/-- A request with the hash of the responder is one of a requestor that has its protocol. -/
structure HandshakeRequest.Agrees (q : HandshakeRequest) (r : Requestor P)
    (remote_hash : Option Hash) : Prop where
  clientHash_eq : q.clientHash = protocols.md5 client
  clientProtocol_eq : ∀ text, q.clientProtocol = some text → text = protocols.str client
  knows : q.serverHash = protocols.md5 server → r.Knows client server remote_hash

/-- So is `BOTH`, and all other responses are with the protocol. -/
def HandshakeResponse.Agrees (a : HandshakeResponse) (r : Requestor P)
    (remote_hash : Option Hash) : Prop :=
  a = ⟨.BOTH, none, none⟩ ∧ r.Knows client server remote_hash ∨
    ∃ m ≠ .BOTH, a = ⟨m, some (protocols.str server), some (protocols.md5 server)⟩

/-- The responder has the protocols of clients under their hashes. -/
structure Responder.Agrees (clients : Set P) (responder : Responder P) : Prop where
  local_eq : responder.local_protocol = server
  cache : ∀ entry ∈ responder.protocol_cache,
    entry.2 ∈ insert server clients ∧ entry.1 = protocols.md5 entry.2

variable {protocols client server} {r r' : Requestor P} {remote_hash remote_hash' : Option Hash}

/-- A message stays in agreement as long as the requestor goes on knowing what it knew. -/
theorem HandshakeRequest.Agrees.mono {q : HandshakeRequest}
    (h : q.Agrees protocols client server r remote_hash)
    (hknows : r.Knows client server remote_hash → r'.Knows client server remote_hash') :
    q.Agrees protocols client server r' remote_hash' :=
  ⟨h.clientHash_eq, h.clientProtocol_eq, fun hhash => hknows (h.knows hhash)⟩

theorem HandshakeResponse.Agrees.mono {a : HandshakeResponse}
    (h : a.Agrees protocols client server r remote_hash)
    (hknows : r.Knows client server remote_hash → r'.Knows client server remote_hash') :
    a.Agrees protocols client server r' remote_hash' :=
  h.imp (fun h => ⟨h.1, hknows h.2⟩) id

/-! ### Requests -/

/-- What `write_handshake_request` makes of the requestor. -/
def Requestor.written (r : Requestor P) (remote_hash : Option Hash) : Requestor P :=
  { r with remote_protocol :=
      if remote_hash = none then some r.local_protocol else r.remote_protocol }

/-- The request that it writes. -/
def Requestor.asks (protocols : Protocols P) (r : Requestor P) (remote_hash : Option Hash) :
    HandshakeRequest where
  clientHash := protocols.md5 r.local_protocol
  clientProtocol := if r.send_protocol then some (protocols.str r.local_protocol) else none
  serverHash := remote_hash.getD (protocols.md5 r.local_protocol)

theorem write_handshake_request_eq :
    write_handshake_request protocols r remote_hash
      = (r.written remote_hash, r.asks protocols remote_hash) := by
  cases remote_hash with
  | none => rfl
  | some hash => rfl

theorem Requestor.written_none : (r.written none).remote_protocol = some r.local_protocol := rfl

theorem Requestor.Agrees.written (h : r.Agrees protocols client server remote_hash) :
    (r.written remote_hash).Agrees protocols client server remote_hash where
  local_eq := h.local_eq
  hash_eq := h.hash_eq
  knows hne := (if_neg hne).trans (h.knows hne)

theorem Requestor.Agrees.knows_written (h : r.Agrees protocols client server remote_hash)
    (hknows : r.Knows client server remote_hash) :
    (r.written remote_hash).Knows client server remote_hash := by
  refine ⟨?_, hknows.2⟩
  cases remote_hash with
  | none =>
    have hsame : client = server := hknows.2.resolve_left (fun h => h rfl)
    exact Requestor.written_none.trans (congrArg some (h.local_eq.trans hsame))
  | some hash => exact hknows.1

theorem Requestor.Agrees.asks (h : r.Agrees protocols client server remote_hash)
    (hmd5 : protocols.md5 client = protocols.md5 server → client = server) :
    (r.asks protocols remote_hash).Agrees protocols client server (r.written remote_hash)
      remote_hash where
  clientHash_eq := congrArg protocols.md5 h.local_eq
  clientProtocol_eq text htext := by
    rw [← h.local_eq]
    by_cases hsend : r.send_protocol
    · exact (Option.some.inj ((if_pos hsend).symm.trans htext)).symm
    · exact absurd ((if_neg hsend).symm.trans htext) (Option.some_ne_none text).symm
  knows hhash := by
    cases remote_hash with
    | none =>
      -- the hash of the client has been taken for the one of the responder
      have hsame : client = server := hmd5 ((congrArg protocols.md5 h.local_eq).symm.trans hhash)
      exact ⟨Requestor.written_none.trans (congrArg some (h.local_eq.trans hsame)), .inr hsame⟩
    | some hash =>
      exact ⟨h.knows (Option.some_ne_none hash), .inl (Option.some_ne_none hash)⟩

/-! ### Responses -/

theorem read_other {m : HandshakeMatch} {hash : Hash} (hserver : protocols.Prints server)
    (hm : m ≠ .BOTH) :
    read_handshake_response protocols r remote_hash ⟨m, some (protocols.str server), some hash⟩
      = if r.send_protocol then .error (avroException "Handshake failure." [])
        else .ok (decide (m = .CLIENT),
          { r with remote_protocol := some server, send_protocol := decide (m = .NONE) },
          some hash) := by
  cases hsend : r.send_protocol with
  | true => cases m <;> first | exact absurd rfl hm | simp [read_handshake_response, hsend]
  | false =>
    cases m with
    | BOTH => exact absurd rfl hm
    | CLIENT => exact read_CLIENT hserver hsend
    | NONE => exact read_NONE hserver hsend

/-- Once it has read a response, the requestor has the protocol of the responder. -/
theorem Requestor.Agrees.read {a : HandshakeResponse} {call_response_exists : Bool}
    (h : r.Agrees protocols client server remote_hash) (hserver : protocols.Prints server)
    (ha : a.Agrees protocols client server r remote_hash)
    (hread : read_handshake_response protocols r remote_hash a
      = .ok (call_response_exists, r', remote_hash')) :
    r'.Agrees protocols client server remote_hash' ∧ r'.Knows client server remote_hash' := by
  obtain ⟨rfl, hknows⟩ | ⟨m, hm, rfl⟩ := ha
  · rw [read_BOTH] at hread
    obtain ⟨-, rfl, rfl⟩ := hread
    exact ⟨⟨h.local_eq, h.hash_eq, h.knows⟩, hknows⟩
  · rw [read_other hserver hm] at hread
    by_cases hsend : r.send_protocol
    · rw [if_pos hsend] at hread
      cases hread
    · rw [if_neg hsend] at hread
      obtain ⟨-, rfl, rfl⟩ := hread
      exact ⟨⟨h.local_eq, fun hash hhash => (Option.some.inj hhash).symm, fun _ => rfl⟩, rfl,
        .inl (Option.some_ne_none _)⟩

theorem HandshakeResponse.Agrees.failure {a : HandshakeResponse} {e : AvroException}
    (ha : a.Agrees protocols client server r remote_hash) (hserver : protocols.Prints server)
    (hread : read_handshake_response protocols r remote_hash a = .error e) :
    e = avroException "Handshake failure." [] := by
  obtain ⟨rfl, -⟩ | ⟨m, hm, rfl⟩ := ha
  · cases hread
  · rw [read_other hserver hm] at hread
    by_cases hsend : r.send_protocol
    · rw [if_pos hsend] at hread
      exact (Except.error.inj hread).symm
    · rw [if_neg hsend] at hread
      cases hread

/-! ### Between them -/

/-- What the responder answers a client that it knows. -/
def answer (protocols : Protocols P) (server : P) (serverHash : Hash) : HandshakeResponse :=
  if protocols.md5 server = serverHash then ⟨.BOTH, none, none⟩
  else ⟨.CLIENT, some (protocols.str server), some (protocols.md5 server)⟩

variable {clients : Set P} {responder : Responder P} {q : HandshakeRequest}

theorem HandshakeRequest.Agrees.answer (hq : q.Agrees protocols client server r remote_hash) :
    (answer protocols server q.serverHash).Agrees protocols client server r remote_hash := by
  unfold Avro.answer
  by_cases hhash : protocols.md5 server = q.serverHash
  · rw [if_pos hhash]
    exact .inl ⟨rfl, hq.knows hhash.symm⟩
  · rw [if_neg hhash]
    exact .inr ⟨.CLIENT, by decide, rfl⟩

theorem Responder.Agrees.lookup (h : responder.Agrees protocols server clients)
    (hmd5 : Set.InjOn protocols.md5 (insert server clients)) (hclient : client ∈ clients) {p : P}
    (hp : responder.protocol_cache.lookup (protocols.md5 client) = some p) : p = client := by
  obtain ⟨before, after, hcache, -⟩ := List.lookup_eq_some_iff.1 hp
  have hmem : (protocols.md5 client, p) ∈ responder.protocol_cache := by simp [hcache]
  obtain ⟨hp, hhash⟩ := h.cache _ hmem
  exact hmd5 hp (Set.mem_insert_of_mem _ hclient) hhash.symm

/-- The responder reads the call with the protocol of the client and knows the client from then
    on, or it asks for the protocol. -/
theorem Responder.Agrees.process (h : responder.Agrees protocols server clients)
    (hmd5 : Set.InjOn protocols.md5 (insert server clients)) (hclient : client ∈ clients)
    (hprints : protocols.Prints client)
    (hq : q.Agrees protocols client server r remote_hash) :
    (∃ responder', process_handshake protocols responder q
        = .ok (some client, answer protocols server q.serverHash, responder') ∧
      responder'.Agrees protocols server clients ∧
      responder.protocol_cache <:+ responder'.protocol_cache ∧
      protocols.md5 client ∈ responder'.protocol_cache.map Prod.fst) ∨
    (protocols.md5 client ∉ responder.protocol_cache.map Prod.fst ∧ q.clientProtocol = none ∧
      process_handshake protocols responder q
        = .ok (none, ⟨.NONE, some (protocols.str server), some (protocols.md5 server)⟩,
          responder)) := by
  obtain ⟨_, cache⟩ := responder
  obtain rfl : _ = server := h.local_eq
  obtain ⟨_, clientProtocol, serverHash⟩ := q
  obtain rfl : _ = protocols.md5 client := hq.clientHash_eq
  cases hlookup : cache.lookup (protocols.md5 client) with
  | some p =>
    obtain rfl := h.lookup hmd5 hclient hlookup
    refine .inl ⟨_, process_handshake_known hlookup, h, List.suffix_refl _, ?_⟩
    obtain ⟨before, after, hcache, -⟩ := List.lookup_eq_some_iff.1 hlookup
    simp [hcache]
  | none =>
    cases clientProtocol with
    | some text =>
      obtain rfl := hq.clientProtocol_eq text rfl
      refine .inl ⟨_, process_handshake_sent hprints hlookup rfl, ⟨rfl, ?_⟩,
        List.suffix_cons _ _, List.mem_cons_self ..⟩
      exact List.forall_mem_cons.2 ⟨⟨Set.mem_insert_of_mem _ hclient, rfl⟩, h.cache⟩
    | none =>
      refine .inr ⟨?_, rfl, process_handshake_unknown hlookup rfl⟩
      rw [List.lookup_eq_none_iff] at hlookup
      rw [List.mem_map]
      rintro ⟨entry, hentry, hhash⟩
      have := hlookup entry hentry
      simp [hhash] at this

end Knowledge

/-! ## Agreement -/

section Agreement

variable {ι ν P : Type} [DecidableEq ι] [DecidableEq ν] (protocols : Protocols P) (name : ι → ν)
  (server : P) (clients : ι → P)

namespace System

/-- Everybody takes the others for what they are: no call and no response is read with anything
    but the protocol of the other side, and nothing but a handshake fails. -/
structure Agrees (s : System ι ν P) : Prop where
  responder : s.responder.Agrees protocols server (Set.range clients)
  requestors : ∀ i, (s.requestors i).Agrees protocols (clients i) server (s.hashes (name i))
  requests : ∀ x ∈ s.requests, x.2.Agrees protocols (clients x.1) server (s.requestors x.1)
    (s.hashes (name x.1))
  responses : ∀ x ∈ s.responses, x.2.Agrees protocols (clients x.1) server (s.requestors x.1)
    (s.hashes (name x.1))
  served : ∀ x ∈ s.served, x.2 = clients x.1
  answered : ∀ x ∈ s.answered, x.2 = some server
  failures : ∀ x ∈ s.failures, x.2 = avroException "Handshake failure." []

variable {protocols name server clients} {s : System ι ν P}

omit [DecidableEq ι] [DecidableEq ν] in
theorem Agrees.new : (new protocols server clients : System ι ν P).Agrees protocols name server
    clients where
  responder := ⟨rfl, List.forall_mem_singleton.2 ⟨Set.mem_insert _ _, rfl⟩⟩
  requestors _ := ⟨rfl, fun _ h => absurd h.symm (Option.some_ne_none _), fun h => absurd rfl h⟩
  requests _ h := absurd h List.not_mem_nil
  responses _ h := absurd h List.not_mem_nil
  served _ h := absurd h List.not_mem_nil
  answered _ h := absurd h List.not_mem_nil
  failures _ h := absurd h List.not_mem_nil

/-- One requestor takes in what it has learned. -/
theorem Agrees.update (h : s.Agrees protocols name server clients)
    (hname : Function.Injective name) {i : ι} {requestor : Requestor P} {remote_hash : Option Hash}
    (hrequestor : requestor.Agrees protocols (clients i) server remote_hash)
    (hknows : (s.requestors i).Knows (clients i) server (s.hashes (name i)) →
      requestor.Knows (clients i) server remote_hash) :
    { s with
      requestors := Function.update s.requestors i requestor
      hashes := Function.update s.hashes (name i) remote_hash }.Agrees protocols name server
      clients := by
  have hother : ∀ {j}, j ≠ i → Function.update s.requestors i requestor j = s.requestors j ∧
      Function.update s.hashes (name i) remote_hash (name j) = s.hashes (name j) :=
    fun hj => ⟨Function.update_of_ne hj _ _, Function.update_of_ne (hname.ne hj) _ _⟩
  have hknows' : ∀ j, (s.requestors j).Knows (clients j) server (s.hashes (name j)) →
      (Function.update s.requestors i requestor j).Knows (clients j) server
        (Function.update s.hashes (name i) remote_hash (name j)) := by
    intro j hj
    by_cases hji : j = i
    · subst hji
      rw [Function.update_self, Function.update_self]
      exact hknows hj
    · rw [(hother hji).1, (hother hji).2]
      exact hj
  refine ⟨h.responder, fun j => ?_, fun x hx => (h.requests x hx).mono (hknows' x.1),
    fun x hx => (h.responses x hx).mono (hknows' x.1), h.served, h.answered, h.failures⟩
  by_cases hji : j = i
  · subst hji
    dsimp only
    rw [Function.update_self, Function.update_self]
    exact hrequestor
  · dsimp only
    rw [(hother hji).1, (hother hji).2]
    exact h.requestors j

omit [DecidableEq ν] in
theorem request_eq_written (i : ι) :
    s.request protocols name i = { s with
      requestors := Function.update s.requestors i
        ((s.requestors i).written (s.hashes (name i)))
      requests := s.requests ++ [(i, (s.requestors i).asks protocols (s.hashes (name i)))]
      sent := Function.update s.sent i (s.sent i + 1) } := by
  unfold request
  rw [write_handshake_request_eq]

theorem Agrees.request (h : s.Agrees protocols name server clients)
    (hname : Function.Injective name)
    (hmd5 : Set.InjOn protocols.md5 (insert server (Set.range clients))) (i : ι) :
    (s.request protocols name i).Agrees protocols name server clients := by
  have hwritten := h.update hname (h.requestors i).written (h.requestors i).knows_written
  rw [Function.update_eq_self] at hwritten
  rw [request_eq_written]
  refine ⟨h.responder, hwritten.requestors, ?_, hwritten.responses, h.served, h.answered,
    h.failures⟩
  intro x hx
  obtain hx | hx := List.mem_append.1 hx
  · exact hwritten.requests x hx
  · obtain rfl := List.mem_singleton.1 hx
    dsimp only
    rw [Function.update_self]
    exact (h.requestors i).asks
      (hmd5 (Set.mem_insert_of_mem _ (Set.mem_range_self i)) (Set.mem_insert _ _))

omit [DecidableEq ι] [DecidableEq ν] in
theorem Agrees.respond (h : s.Agrees protocols name server clients)
    (hmd5 : Set.InjOn protocols.md5 (insert server (Set.range clients)))
    (hclients : ∀ i, protocols.Prints (clients i)) {i : ι} {q : HandshakeRequest}
    (hq : q.Agrees protocols (clients i) server (s.requestors i) (s.hashes (name i))) :
    (s.respond protocols i q).Agrees protocols name server clients := by
  have hresponses : ∀ a : HandshakeResponse,
      a.Agrees protocols (clients i) server (s.requestors i) (s.hashes (name i)) →
      ∀ x ∈ s.responses ++ [(i, a)], x.2.Agrees protocols (clients x.1) server
        (s.requestors x.1) (s.hashes (name x.1)) := fun a ha x hx =>
    (List.mem_append.1 hx).elim (h.responses x) fun hx => by
      obtain rfl := List.mem_singleton.1 hx
      exact ha
  unfold System.respond
  obtain ⟨responder, hprocess, hresponder, -, -⟩ | ⟨-, -, hprocess⟩ :=
    h.responder.process hmd5 (Set.mem_range_self i) (hclients i) hq
  · rw [hprocess]
    refine ⟨hresponder, h.requestors, h.requests, hresponses _ hq.answer, ?_, h.answered,
      h.failures⟩
    exact fun x hx => (List.mem_append.1 hx).elim (h.served x) fun hx => by
      obtain rfl := List.mem_singleton.1 hx
      rfl
  · rw [hprocess]
    refine ⟨h.responder, h.requestors, h.requests, hresponses _ (.inr ⟨.NONE, by decide, rfl⟩),
      ?_, h.answered, h.failures⟩
    exact fun x hx => h.served x (List.append_nil s.served ▸ hx)

theorem Agrees.processHandshake (h : s.Agrees protocols name server clients)
    (hname : Function.Injective name)
    (hmd5 : Set.InjOn protocols.md5 (insert server (Set.range clients)))
    (hserver : protocols.Prints server) {i : ι} {a : HandshakeResponse}
    (ha : a.Agrees protocols (clients i) server (s.requestors i) (s.hashes (name i))) :
    (s.processHandshake protocols name i a).Agrees protocols name server clients := by
  unfold System.processHandshake
  cases hread : read_handshake_response protocols (s.requestors i) (s.hashes (name i)) a with
  | error e =>
    refine ⟨h.responder, h.requestors, h.requests, h.responses, h.served, h.answered, ?_⟩
    exact fun x hx => (List.mem_append.1 hx).elim (h.failures x) fun hx => by
      obtain rfl := List.mem_singleton.1 hx
      exact ha.failure hserver hread
  | ok result =>
    obtain ⟨call_response_exists, requestor, remote_hash⟩ := result
    obtain ⟨hrequestor, hknows⟩ := (h.requestors i).read hserver ha hread
    have hupdate := h.update hname hrequestor (fun _ => hknows)
    cases call_response_exists with
    | false => exact hupdate.request hname hmd5 i
    | true =>
      refine ⟨h.responder, hupdate.requestors, hupdate.requests, hupdate.responses, h.served, ?_,
        h.failures⟩
      exact fun x hx => (List.mem_append.1 hx).elim (h.answered x) fun hx => by
        obtain rfl := List.mem_singleton.1 hx
        exact hknows.1

omit [DecidableEq ι] [DecidableEq ν] in
theorem Agrees.of_subset (h : s.Agrees protocols name server clients)
    {requests : List (ι × HandshakeRequest)} {responses : List (ι × HandshakeResponse)}
    (hrequests : requests ⊆ s.requests) (hresponses : responses ⊆ s.responses) :
    { s with requests, responses }.Agrees protocols name server clients :=
  ⟨h.responder, h.requestors, fun x hx => h.requests x (hrequests hx),
    fun x hx => h.responses x (hresponses hx), h.served, h.answered, h.failures⟩

omit [DecidableEq ι] [DecidableEq ν] in
theorem Agrees.of_calls (h : s.Agrees protocols name server clients) {calls : ι → ℕ} :
    { s with calls }.Agrees protocols name server clients :=
  ⟨h.responder, h.requestors, h.requests, h.responses, h.served, h.answered, h.failures⟩

theorem Agrees.step (h : s.Agrees protocols name server clients)
    (hname : Function.Injective name)
    (hmd5 : Set.InjOn protocols.md5 (insert server (Set.range clients)))
    (hserver : protocols.Prints server) (hclients : ∀ i, protocols.Prints (clients i))
    (e : Event ι) : (s.step protocols name e).Agrees protocols name server clients := by
  cases e with
  | start i => exact (h.request hname hmd5 i).of_calls
  | serve k =>
    dsimp only [System.step]
    cases htaken : taken s.requests k with
    | none => exact h
    | some x =>
      exact (h.of_subset (subset_of_taken htaken) (List.Subset.refl _)).respond hmd5 hclients
        (h.requests _ (mem_of_taken htaken))
  | deliver k =>
    dsimp only [System.step]
    cases htaken : taken s.responses k with
    | none => exact h
    | some x =>
      exact (h.of_subset (List.Subset.refl _) (subset_of_taken htaken)).processHandshake hname
        hmd5 hserver (h.responses _ (mem_of_taken htaken))
  | loseRequest k => exact h.of_subset (List.eraseIdx_subset ..) (List.Subset.refl _)
  | loseResponse k => exact h.of_subset (List.Subset.refl _) (List.eraseIdx_subset ..)

/-- Whatever calls overlap and whatever gets lost, the responder reads every call with the protocol
    of the client that made it, and the clients read every response with the one of the
    responder. What can fail is a handshake, and nothing else. -/
theorem agreement (hname : Function.Injective name)
    (hmd5 : Set.InjOn protocols.md5 (insert server (Set.range clients)))
    (hserver : protocols.Prints server) (hclients : ∀ i, protocols.Prints (clients i))
    (es : List (Event ι)) :
    ∀ s ∈ Transition.states (System.step protocols name) (new protocols server clients) es,
      (∀ x ∈ s.served, x.2 = clients x.1) ∧ (∀ x ∈ s.answered, x.2 = some server) ∧
        ∀ x ∈ s.failures, x.2 = avroException "Handshake failure." [] := by
  intro s hs
  have h : s.Agrees protocols name server clients :=
    Transition.states_invariant (fun s e _ h => h.step hname hmd5 hserver hclients e) Agrees.new
      (@Transition.guarded_of_forall _ _ _ (fun _ => True) _ _ fun _ _ => trivial) s hs
  exact ⟨h.served, h.answered, h.failures⟩

/-- A client of a protocol of its own, and one of the responder's -/
def mailAndChat (isMail : Bool) : PyString := if isMail then MAIL else CHAT

theorem injOn_twoProtocols :
    Set.InjOn twoProtocols.md5 (insert CHAT (Set.range mailAndChat)) := by
  have hcases : ∀ p ∈ insert CHAT (Set.range mailAndChat), p = MAIL ∨ p = CHAT := by
    rintro p (rfl | ⟨isMail, rfl⟩)
    · exact .inr rfl
    · cases isMail with
      | true => exact .inl rfl
      | false => exact .inr rfl
  intro p hp q hq heq
  obtain rfl | rfl := hcases p hp
  · obtain rfl | rfl := hcases q hq
    · rfl
    · exact absurd heq (by decide)
  · obtain rfl | rfl := hcases q hq
    · exact absurd heq (by decide)
    · rfl

/-- Two calls at a time, with a response that overtakes another one and one that gets lost -/
def overlapping : List (Event Bool) :=
  [.start true, .start true, .start false, .serve 2, .serve 0, .serve 0, .deliver 2,
    .loseResponse 0, .deliver 0, .serve 0, .deliver 0]

theorem agreement_overlapping :
    (∀ x ∈ (Transition.run (System.step twoProtocols id) (new twoProtocols CHAT mailAndChat)
      overlapping).served, x.2 = mailAndChat x.1) ∧
    (∀ x ∈ (Transition.run (System.step twoProtocols id) (new twoProtocols CHAT mailAndChat)
      overlapping).answered, x.2 = some CHAT) ∧
    ∀ x ∈ (Transition.run (System.step twoProtocols id) (new twoProtocols CHAT mailAndChat)
      overlapping).failures, x.2 = avroException "Handshake failure." [] :=
  agreement Function.injective_id injOn_twoProtocols rfl (fun _ => rfl) overlapping _
    (Transition.run_mem_states _ _ _)

end System

end Agreement

/-! ## Calls that wait for each other -/

section Alone

variable {ι ν P : Type} [DecidableEq ι] [DecidableEq ν] (protocols : Protocols P) (name : ι → ν)
  (server : P) (clients : ι → P)

namespace System

/-- Who has a message in flight, from it or to it -/
def owners (s : System ι ν P) : List ι := s.requests.map Prod.fst ++ s.responses.map Prod.fst

/-- A requestor starts a call when no other one of its own is on the way. -/
def Alone (s : System ι ν P) : Event ι → Prop
  | .start i => i ∉ s.owners
  | _ => True

/-- The responder has the protocol of the client. -/
def Known (s : System ι ν P) (i : ι) : Prop :=
  protocols.md5 (clients i) ∈ s.responder.protocol_cache.map Prod.fst

/-- While a requestor wants to send its protocol, all that is in flight of it is a request with the
    protocol, or the answer to one. -/
structure Orderly (s : System ι ν P) : Prop where
  agrees : s.Agrees protocols name server clients
  nodup : s.owners.Nodup
  failures : s.failures = []
  hash : ∀ i, (s.requestors i).send_protocol = true →
    s.hashes (name i) = some (protocols.md5 server)
  requests : ∀ x ∈ s.requests, (s.requestors x.1).send_protocol = true →
    x.2.clientProtocol ≠ none ∧ x.2.serverHash = protocols.md5 server
  responses : ∀ x ∈ s.responses, (s.requestors x.1).send_protocol = true → x.2.match_ = .BOTH
  known : ∀ x ∈ s.responses, x.2.match_ ≠ .NONE → s.Known protocols clients x.1

/-- The responder has the protocol of the client, or it is going to get it. -/
structure Introduced (s : System ι ν P) (i : ι) : Prop where
  requestor : (s.requestors i).send_protocol = true ∨ s.Known protocols clients i
  requests : ∀ x ∈ s.requests, x.1 = i → x.2.clientProtocol = none → s.Known protocols clients i
  responses : ∀ x ∈ s.responses, x.1 = i → x.2.match_ ≠ .NONE

/-- Only one of all requests of a requestor was made again. -/
def Counted (s : System ι ν P) (i : ι) : Prop :=
  s.sent i = s.calls i ∨ s.sent i = s.calls i + 1 ∧ s.Introduced protocols clients i

variable {protocols name server clients} {s s' : System ι ν P}

omit [DecidableEq ι] [DecidableEq ν] in
theorem Known.mono {i : ι} (h : s.Known protocols clients i)
    (hcache : s.responder.protocol_cache <:+ s'.responder.protocol_cache) :
    s'.Known protocols clients i :=
  (hcache.map Prod.fst).subset h

omit [DecidableEq ι] [DecidableEq ν] in
theorem Orderly.new : (new protocols server clients : System ι ν P).Orderly protocols name server
    clients where
  agrees := Agrees.new
  nodup := List.nodup_nil
  failures := rfl
  hash _ h := absurd h Bool.false_ne_true
  requests _ h := absurd h List.not_mem_nil
  responses _ h := absurd h List.not_mem_nil
  known _ h := absurd h List.not_mem_nil

omit [DecidableEq ι] [DecidableEq ν] in
theorem Introduced.mono {i : ι} (h : s.Introduced protocols clients i)
    (hcache : s.responder.protocol_cache <:+ s'.responder.protocol_cache)
    (hrequestor : (s.requestors i).send_protocol = true →
      (s'.requestors i).send_protocol = true ∨ s'.Known protocols clients i)
    (hrequests : ∀ x ∈ s'.requests, x.1 = i → x ∈ s.requests)
    (hresponses : ∀ x ∈ s'.responses, x.1 = i → x ∈ s.responses ∨ x.2.match_ ≠ .NONE) :
    s'.Introduced protocols clients i where
  requestor := h.requestor.elim hrequestor fun h => .inr (h.mono hcache)
  requests x hx hi hnone := (h.requests x (hrequests x hx hi) hi hnone).mono hcache
  responses x hx hi := (hresponses x hx hi).elim (fun hx => h.responses x hx hi) id

/-! ### Messages that leave the network -/

section Taken

variable {k : ℕ} {i : ι}

omit [DecidableEq ι] [DecidableEq ν] in
theorem owners_of_taken_request {q : HandshakeRequest} {requests : List (ι × HandshakeRequest)}
    (h : taken s.requests k = some ((i, q), requests)) :
    s.owners.Perm (i :: { s with requests }.owners) :=
  ((perm_of_taken h).map Prod.fst).append_right _

omit [DecidableEq ι] [DecidableEq ν] in
theorem owners_of_taken_response {a : HandshakeResponse}
    {responses : List (ι × HandshakeResponse)}
    (h : taken s.responses k = some ((i, a), responses)) :
    s.owners.Perm (i :: { s with responses }.owners) :=
  (((perm_of_taken h).map Prod.fst).append_left _).trans List.perm_middle

omit [DecidableEq ι] [DecidableEq ν] in
theorem Orderly.of_subset (h : s.Orderly protocols name server clients)
    {requests : List (ι × HandshakeRequest)} {responses : List (ι × HandshakeResponse)}
    (hrequests : requests ⊆ s.requests) (hresponses : responses ⊆ s.responses)
    (hnodup : { s with requests, responses }.owners.Nodup) :
    { s with requests, responses }.Orderly protocols name server clients where
  agrees := h.agrees.of_subset hrequests hresponses
  nodup := hnodup
  failures := h.failures
  hash := h.hash
  requests x hx := h.requests x (hrequests hx)
  responses x hx := h.responses x (hresponses hx)
  known x hx := h.known x (hresponses hx)

omit [DecidableEq ι] [DecidableEq ν] in
theorem Counted.of_subset {j : ι} (h : s.Counted protocols clients j)
    {requests : List (ι × HandshakeRequest)} {responses : List (ι × HandshakeResponse)}
    (hrequests : requests ⊆ s.requests) (hresponses : responses ⊆ s.responses) :
    { s with requests, responses }.Counted protocols clients j :=
  h.imp id fun ⟨hsent, h⟩ => ⟨hsent, h.mono (List.suffix_refl _) .inl
    (fun _ hx _ => hrequests hx) (fun _ hx _ => .inl (hresponses hx))⟩

end Taken

/-! ### A request is made -/

/-- One requestor, of which nothing is in flight, takes in what it has learned. -/
theorem Orderly.update (h : s.Orderly protocols name server clients)
    (hname : Function.Injective name) {i : ι} (hi : i ∉ s.owners) {requestor : Requestor P}
    {remote_hash : Option Hash}
    (hrequestor : requestor.Agrees protocols (clients i) server remote_hash)
    (hknows : (s.requestors i).Knows (clients i) server (s.hashes (name i)) →
      requestor.Knows (clients i) server remote_hash)
    (hhash : requestor.send_protocol = true → remote_hash = some (protocols.md5 server)) :
    { s with
      requestors := Function.update s.requestors i requestor
      hashes := Function.update s.hashes (name i) remote_hash }.Orderly protocols name server
      clients := by
  have howner : ∀ j ∈ s.owners, Function.update s.requestors i requestor j = s.requestors j :=
    fun j hj => Function.update_of_ne (fun hji : j = i => hi (hji ▸ hj)) _ _
  refine ⟨h.agrees.update hname hrequestor hknows, h.nodup, h.failures, fun j hsend => ?_,
    fun x hx hsend => h.requests x hx ?_, fun x hx hsend => h.responses x hx ?_, h.known⟩
  · by_cases hji : j = i
    · subst hji
      dsimp only at hsend ⊢
      rw [Function.update_self] at hsend ⊢
      exact hhash hsend
    · dsimp only at hsend ⊢
      rw [Function.update_of_ne hji] at hsend
      rw [Function.update_of_ne (hname.ne hji)]
      exact h.hash j hsend
  · dsimp only at hx hsend
    rwa [howner x.1 (List.mem_append_left _ (List.mem_map_of_mem hx))] at hsend
  · dsimp only at hx hsend
    rwa [howner x.1 (List.mem_append_right _ (List.mem_map_of_mem hx))] at hsend

theorem Orderly.request (h : s.Orderly protocols name server clients)
    (hname : Function.Injective name)
    (hmd5 : Set.InjOn protocols.md5 (insert server (Set.range clients))) {i : ι}
    (hi : i ∉ s.owners) : (s.request protocols name i).Orderly protocols name server clients := by
  have hrequestor := h.agrees.requestors i
  have hwritten := h.update hname hi hrequestor.written hrequestor.knows_written (h.hash i)
  rw [Function.update_eq_self] at hwritten
  have hagrees := h.agrees.request hname hmd5 i
  rw [request_eq_written] at hagrees ⊢
  refine ⟨hagrees, ?_, h.failures, hwritten.hash, fun x hx hsend => ?_, hwritten.responses,
    h.known⟩
  · rw [owners, List.map_append, List.append_assoc]
    exact List.perm_middle.nodup_iff.2 (List.nodup_cons.2 ⟨hi, h.nodup⟩)
  · obtain hx | hx := List.mem_append.1 hx
    · exact hwritten.requests x hx hsend
    · obtain rfl := List.mem_singleton.1 hx
      dsimp only at hsend
      rw [Function.update_self] at hsend
      have hsend : (s.requestors i).send_protocol = true := hsend
      refine ⟨?_, ?_⟩
      · dsimp only [Requestor.asks]
        rw [if_pos hsend]
        exact Option.some_ne_none _
      · dsimp only [Requestor.asks]
        rw [h.hash i hsend]
        rfl

/-! ### A request is served -/

omit [DecidableEq ι] [DecidableEq ν] in
/-- What the responder makes of a request. -/
theorem Orderly.respond_eq (h : s.Orderly protocols name server clients)
    (hmd5 : Set.InjOn protocols.md5 (insert server (Set.range clients)))
    (hclients : ∀ i, protocols.Prints (clients i)) {i : ι} {q : HandshakeRequest}
    (hq : (i, q) ∈ s.requests) (requests : List (ι × HandshakeRequest)) :
    (∃ responder, { s with requests }.respond protocols i q = { s with
        requests
        responder
        responses := s.responses ++ [(i, answer protocols server q.serverHash)]
        served := s.served ++ [(i, clients i)] } ∧
      s.responder.protocol_cache <:+ responder.protocol_cache ∧
      protocols.md5 (clients i) ∈ responder.protocol_cache.map Prod.fst) ∨
    (¬ s.Known protocols clients i ∧ q.clientProtocol = none ∧
      { s with requests }.respond protocols i q = { s with
        requests
        responses := s.responses ++
          [(i, ⟨.NONE, some (protocols.str server), some (protocols.md5 server)⟩)] }) := by
  obtain ⟨responder, hprocess, -, hcache, hknown⟩ | ⟨hknown, hnone, hprocess⟩ :=
    h.agrees.responder.process hmd5 (Set.mem_range_self i) (hclients i) (h.agrees.requests _ hq)
  · refine .inl ⟨responder, ?_, hcache, hknown⟩
    unfold System.respond
    dsimp only
    rw [hprocess]
    rfl
  · refine .inr ⟨hknown, hnone, ?_⟩
    unfold System.respond
    dsimp only
    rw [hprocess]
    simp

theorem answer_match (serverHash : Hash) :
    (answer protocols server serverHash).match_ ≠ .NONE := by
  unfold answer
  by_cases hhash : protocols.md5 server = serverHash
  · rw [if_pos hhash]
    exact (by decide : HandshakeMatch.BOTH ≠ .NONE)
  · rw [if_neg hhash]
    exact (by decide : HandshakeMatch.CLIENT ≠ .NONE)

omit [DecidableEq ι] [DecidableEq ν] in
theorem Orderly.respond (h : s.Orderly protocols name server clients)
    (hmd5 : Set.InjOn protocols.md5 (insert server (Set.range clients)))
    (hclients : ∀ i, protocols.Prints (clients i)) {k : ℕ} {i : ι} {q : HandshakeRequest}
    {requests : List (ι × HandshakeRequest)}
    (htaken : taken s.requests k = some ((i, q), requests)) :
    ({ s with requests }.respond protocols i q).Orderly protocols name server clients := by
  have hmem := mem_of_taken htaken
  have hsubset := subset_of_taken htaken
  have hagrees := (h.agrees.of_subset hsubset (List.Subset.refl _)).respond hmd5 hclients
    (h.agrees.requests _ hmem)
  have hnodup : ∀ a : HandshakeResponse,
      { s with requests, responses := s.responses ++ [(i, a)] }.owners.Nodup := by
    intro a
    refine (List.Perm.nodup_iff ?_).1 ((owners_of_taken_request htaken).nodup_iff.1 h.nodup)
    dsimp only [owners]
    rw [List.map_append, ← List.append_assoc]
    exact (List.perm_append_singleton i _).symm
  obtain ⟨responder, heq, hcache, hknown⟩ | ⟨hunknown, hnone, heq⟩ :=
    h.respond_eq hmd5 hclients hmem requests
  · rw [heq] at hagrees ⊢
    refine ⟨hagrees, hnodup _, h.failures, h.hash, fun x hx => h.requests x (hsubset hx),
      fun x hx hsend => ?_, fun x hx hmatch => ?_⟩
    · obtain hx | hx := List.mem_append.1 hx
      · exact h.responses x hx hsend
      · obtain rfl := List.mem_singleton.1 hx
        rw [(h.requests _ hmem hsend).2]
        exact congrArg HandshakeResponse.match_ (if_pos rfl)
    · obtain hx | hx := List.mem_append.1 hx
      · exact (h.known x hx hmatch).mono hcache
      · obtain rfl := List.mem_singleton.1 hx
        exact hknown
  · rw [heq] at hagrees ⊢
    refine ⟨hagrees, hnodup _, h.failures, h.hash, fun x hx => h.requests x (hsubset hx),
      fun x hx hsend => ?_, fun x hx hmatch => ?_⟩
    · obtain hx | hx := List.mem_append.1 hx
      · exact h.responses x hx hsend
      · obtain rfl := List.mem_singleton.1 hx
        exact absurd hnone (h.requests _ hmem hsend).1
    · obtain hx | hx := List.mem_append.1 hx
      · exact h.known x hx hmatch
      · obtain rfl := List.mem_singleton.1 hx
        exact absurd rfl hmatch

omit [DecidableEq ι] [DecidableEq ν] in
theorem Counted.respond (h : s.Orderly protocols name server clients)
    (hmd5 : Set.InjOn protocols.md5 (insert server (Set.range clients)))
    (hclients : ∀ i, protocols.Prints (clients i)) {k : ℕ} {i j : ι} {q : HandshakeRequest}
    {requests : List (ι × HandshakeRequest)}
    (htaken : taken s.requests k = some ((i, q), requests))
    (hcounted : s.Counted protocols clients j) :
    ({ s with requests }.respond protocols i q).Counted protocols clients j := by
  have hmem := mem_of_taken htaken
  have hsubset := subset_of_taken htaken
  obtain ⟨responder, heq, hcache, hknown⟩ | ⟨hunknown, hnone, heq⟩ :=
    h.respond_eq hmd5 hclients hmem requests
  · rw [heq]
    refine hcounted.imp id fun ⟨hsent, h⟩ => ⟨hsent, h.mono hcache .inl
      (fun _ hx _ => hsubset hx) fun x hx _ => ?_⟩
    exact (List.mem_append.1 hx).imp id fun hx => by
      obtain rfl := List.mem_singleton.1 hx
      exact answer_match _
  · rw [heq]
    refine hcounted.imp id fun ⟨hsent, h⟩ => ⟨hsent, h.mono (List.suffix_refl _) .inl
      (fun _ hx _ => hsubset hx) fun x hx hxj => ?_⟩
    refine (List.mem_append.1 hx).imp id fun hx => ?_
    -- a requestor that has been asked for its protocol does not ask without it again
    obtain rfl := List.mem_singleton.1 hx
    exact absurd (h.requests _ hmem hxj hnone) (hxj ▸ hunknown)

/-! ### A response is delivered -/

omit [DecidableEq ι] [DecidableEq ν] in
/-- A requestor goes on with a response that there is, and with its protocol if there is none. -/
theorem Orderly.read (h : s.Orderly protocols name server clients)
    (hserver : protocols.Prints server) {i : ι} {a : HandshakeResponse}
    (ha : (i, a) ∈ s.responses) :
    ∃ call_response_exists requestor remote_hash,
      read_handshake_response protocols (s.requestors i) (s.hashes (name i)) a
        = .ok (call_response_exists, requestor, remote_hash) ∧
      (call_response_exists = true → requestor.send_protocol = false ∧
        s.Known protocols clients i) ∧
      (call_response_exists = false → requestor.send_protocol = true ∧
        remote_hash = some (protocols.md5 server) ∧ a.match_ = .NONE) := by
  obtain ⟨rfl, -⟩ | ⟨m, hm, rfl⟩ := h.agrees.responses _ ha
  · refine ⟨true, _, _, read_BOTH none none, fun _ => ⟨rfl, h.known _ ha ?_⟩, nofun⟩
    exact (by decide : HandshakeMatch.BOTH ≠ .NONE)
  · have hsend : ¬ (s.requestors i).send_protocol = true := fun hsend =>
      hm (h.responses _ ha hsend)
    refine ⟨_, _, _, (read_other hserver hm).trans (if_neg hsend), ?_, ?_⟩
    · intro hclient
      obtain rfl := of_decide_eq_true hclient
      exact ⟨rfl, h.known _ ha (by decide : HandshakeMatch.CLIENT ≠ .NONE)⟩
    · intro hnone
      have hm' : m = .NONE := by
        cases m with
        | BOTH => exact absurd rfl hm
        | CLIENT => exact absurd rfl (of_decide_eq_false hnone)
        | NONE => rfl
      exact ⟨decide_eq_true hm', rfl, hm'⟩

theorem Orderly.processHandshake (h : s.Orderly protocols name server clients)
    (hname : Function.Injective name)
    (hmd5 : Set.InjOn protocols.md5 (insert server (Set.range clients)))
    (hserver : protocols.Prints server) {k : ℕ} {i : ι} {a : HandshakeResponse}
    {responses : List (ι × HandshakeResponse)}
    (htaken : taken s.responses k = some ((i, a), responses)) :
    ({ s with responses }.processHandshake protocols name i a).Orderly protocols name server
      clients := by
  have hmem := mem_of_taken htaken
  have howners := List.nodup_cons.1 ((owners_of_taken_response htaken).nodup_iff.1 h.nodup)
  have hrest := h.of_subset (List.Subset.refl s.requests) (subset_of_taken htaken) howners.2
  obtain ⟨call_response_exists, requestor, remote_hash, hread, htrue, hfalse⟩ :=
    h.read hserver hmem
  obtain ⟨hagrees, hknows⟩ := (h.agrees.requestors i).read hserver (h.agrees.responses _ hmem) hread
  unfold System.processHandshake
  dsimp only
  rw [hread]
  cases call_response_exists with
  | true =>
    have hupdate := hrest.update hname howners.1 hagrees (fun _ => hknows)
      (fun hsend => absurd (hsend.symm.trans (htrue rfl).1) (by decide))
    refine ⟨⟨hupdate.agrees.responder, hupdate.agrees.requestors, hupdate.agrees.requests,
      hupdate.agrees.responses, hupdate.agrees.served, ?_, hupdate.agrees.failures⟩,
      hupdate.nodup, hupdate.failures, hupdate.hash, hupdate.requests, hupdate.responses,
      hupdate.known⟩
    exact fun x hx => (List.mem_append.1 hx).elim (h.agrees.answered x) fun hx => by
      obtain rfl := List.mem_singleton.1 hx
      exact hknows.1
  | false =>
    have hupdate := hrest.update hname howners.1 hagrees (fun _ => hknows)
      (fun _ => (hfalse rfl).2.1)
    exact hupdate.request hname hmd5 howners.1

omit [DecidableEq ν] in
/-- Another requestor makes a request. -/
theorem Counted.request_of_ne {i j : ι} (h : s.Counted protocols clients j) (hji : j ≠ i) :
    (s.request protocols name i).Counted protocols clients j := by
  rw [request_eq_written]
  unfold Counted
  dsimp only
  rw [Function.update_of_ne hji]
  refine h.imp id fun ⟨hsent, h⟩ => ⟨hsent, h.mono (List.suffix_refl _) (fun hsend => .inl ?_)
    (fun x hx hxj => ?_) fun _ hx _ => .inl hx⟩
  · dsimp only
    rwa [Function.update_of_ne hji]
  · obtain hx | hx := List.mem_append.1 hx
    · exact hx
    · obtain rfl := List.mem_singleton.1 hx
      exact absurd hxj.symm hji

theorem Counted.processHandshake (h : s.Orderly protocols name server clients)
    (hserver : protocols.Prints server) {k : ℕ} {i j : ι} {a : HandshakeResponse}
    {responses : List (ι × HandshakeResponse)}
    (htaken : taken s.responses k = some ((i, a), responses))
    (hcounted : s.Counted protocols clients j) :
    ({ s with responses }.processHandshake protocols name i a).Counted protocols clients j := by
  have hmem := mem_of_taken htaken
  have hsubset := subset_of_taken htaken
  have howners := List.nodup_cons.1 ((owners_of_taken_response htaken).nodup_iff.1 h.nodup)
  obtain ⟨call_response_exists, requestor, remote_hash, hread, htrue, hfalse⟩ :=
    h.read hserver hmem
  unfold System.processHandshake
  dsimp only
  rw [hread]
  have hother : j ≠ i → { s with
      responses
      requestors := Function.update s.requestors i requestor
      hashes := Function.update s.hashes (name i) remote_hash }.Counted protocols clients j :=
    fun hji => hcounted.imp id fun ⟨hsent, h⟩ => ⟨hsent, h.mono (List.suffix_refl _)
      (fun hsend => .inl ((congrArg Requestor.send_protocol
        (Function.update_of_ne hji _ _)).trans hsend))
      (fun _ hx _ => hx) fun _ hx _ => .inl (hsubset hx)⟩
  cases call_response_exists with
  | true =>
    by_cases hji : j = i
    · subst hji
      exact hcounted.imp id fun ⟨hsent, h⟩ => ⟨hsent, h.mono (List.suffix_refl _)
        (fun _ => .inr (htrue rfl).2) (fun _ hx _ => hx) fun _ hx _ => .inl (hsubset hx)⟩
    · exact (hother hji).imp id fun ⟨hsent, h⟩ => ⟨hsent, h.mono (List.suffix_refl _) .inl
        (fun _ hx _ => hx) fun _ hx _ => .inl hx⟩
  | false =>
    by_cases hji : j = i
    · subst hji
      obtain ⟨hsend, -, hmatch⟩ := hfalse rfl
      have hsent : s.sent j = s.calls j := hcounted.resolve_right fun ⟨_, h⟩ =>
        h.responses _ hmem rfl hmatch
      dsimp only
      rw [if_neg Bool.false_ne_true, request_eq_written]
      refine .inr ⟨?_, ?_, ?_, ?_⟩
      · dsimp only
        rw [Function.update_self, hsent]
      · refine .inl ?_
        dsimp only
        rw [Function.update_self, Function.update_self]
        exact hsend
      · intro x hx hxj hnone
        obtain hx | hx := List.mem_append.1 hx
        · exact absurd (List.mem_append_left _ (List.mem_map_of_mem hx)) (hxj ▸ howners.1)
        · obtain rfl := List.mem_singleton.1 hx
          dsimp only [Requestor.asks] at hnone
          rw [Function.update_self, if_pos hsend] at hnone
          cases hnone
      · intro x hx hxj
        exact absurd (List.mem_append_right _ (List.mem_map_of_mem hx)) (hxj ▸ howners.1)
    · exact (hother hji).request_of_ne hji

/-! ### Runs -/

theorem Orderly.step (h : s.Orderly protocols name server clients)
    (hname : Function.Injective name)
    (hmd5 : Set.InjOn protocols.md5 (insert server (Set.range clients)))
    (hserver : protocols.Prints server) (hclients : ∀ i, protocols.Prints (clients i))
    {e : Event ι} (he : s.Alone e) :
    (s.step protocols name e).Orderly protocols name server clients := by
  cases e with
  | start i =>
    have := h.request hname hmd5 he
    exact ⟨this.agrees.of_calls, this.nodup, this.failures, this.hash, this.requests,
      this.responses, this.known⟩
  | serve k =>
    dsimp only [System.step]
    cases htaken : taken s.requests k with
    | none => exact h
    | some x => exact h.respond hmd5 hclients htaken
  | deliver k =>
    dsimp only [System.step]
    cases htaken : taken s.responses k with
    | none => exact h
    | some x => exact h.processHandshake hname hmd5 hserver htaken
  | loseRequest k =>
    refine h.of_subset (List.eraseIdx_subset ..) (List.Subset.refl _) (h.nodup.sublist ?_)
    exact ((List.eraseIdx_sublist ..).map _).append_right _
  | loseResponse k =>
    refine h.of_subset (List.Subset.refl _) (List.eraseIdx_subset ..) (h.nodup.sublist ?_)
    exact ((List.eraseIdx_sublist ..).map _).append_left _

theorem Counted.step (h : s.Orderly protocols name server clients)
    (hmd5 : Set.InjOn protocols.md5 (insert server (Set.range clients)))
    (hserver : protocols.Prints server) (hclients : ∀ i, protocols.Prints (clients i))
    {e : Event ι} {j : ι} (hcounted : s.Counted protocols clients j) :
    (s.step protocols name e).Counted protocols clients j := by
  cases e with
  | start i =>
    dsimp only [System.step]
    by_cases hji : j = i
    · subst hji
      rw [request_eq_written]
      unfold Counted
      dsimp only
      rw [Function.update_self, Function.update_self]
      refine hcounted.imp (congrArg (· + 1)) fun ⟨hsent, hj⟩ => ⟨congrArg (· + 1) hsent, ?_⟩
      refine ⟨?_, fun x hx hxj hnone => ?_, hj.responses⟩
      · dsimp only
        rw [Function.update_self]
        exact hj.requestor
      · obtain hx | hx := List.mem_append.1 hx
        · exact hj.requests x hx hxj hnone
        · obtain rfl := List.mem_singleton.1 hx
          refine hj.requestor.resolve_left fun hsend => ?_
          dsimp only [Requestor.asks] at hnone
          rw [if_pos hsend] at hnone
          cases hnone
    · have := @Counted.request_of_ne _ _ _ _ protocols name clients s i j hcounted hji
      unfold Counted at this ⊢
      dsimp only
      rw [Function.update_of_ne hji]
      have hcalls : (s.request protocols name i).calls = s.calls := by rw [request_eq_written]
      rw [hcalls] at this
      exact this.imp id fun ⟨hsent, h⟩ => ⟨hsent, h.requestor, h.requests, h.responses⟩
  | serve k =>
    dsimp only [System.step]
    cases htaken : taken s.requests k with
    | none => exact hcounted
    | some x => exact hcounted.respond h hmd5 hclients htaken
  | deliver k =>
    dsimp only [System.step]
    cases htaken : taken s.responses k with
    | none => exact hcounted
    | some x => exact hcounted.processHandshake h hserver htaken
  | loseRequest k => exact hcounted.of_subset (List.eraseIdx_subset ..) (List.Subset.refl _)
  | loseResponse k => exact hcounted.of_subset (List.Subset.refl _) (List.eraseIdx_subset ..)

/-- If no requestor starts a call before the last one has come to its end, all handshakes succeed,
    whatever gets lost, and of all its calls a requestor makes one request again. -/
theorem no_handshake_failure (hname : Function.Injective name)
    (hmd5 : Set.InjOn protocols.md5 (insert server (Set.range clients)))
    (hserver : protocols.Prints server) (hclients : ∀ i, protocols.Prints (clients i))
    {es : List (Event ι)}
    (hes : Transition.Guarded (System.step protocols name) Alone (new protocols server clients)
      es) :
    ∀ s ∈ Transition.states (System.step protocols name) (new protocols server clients) es,
      s.failures = [] ∧ ∀ i, s.sent i ≤ s.calls i + 1 := by
  intro s hs
  have h := @Transition.states_invariant _ _ _ _
    (fun s => s.Orderly protocols name server clients ∧ ∀ j, s.Counted protocols clients j)
    (fun s e he ⟨h, hcounted⟩ => ⟨h.step hname hmd5 hserver hclients he,
      fun j => (hcounted j).step h hmd5 hserver hclients⟩) _ _
    ⟨Orderly.new, fun _ => .inl rfl⟩ hes s hs
  refine ⟨h.1.failures, fun i => ?_⟩
  obtain hsent | ⟨hsent, -⟩ := h.2 i
  · omega
  · omega

/-- A first call and, once it has its response, a second one -/
def oneByOne : List (Event Bool) :=
  [.start true, .serve 0, .deliver 0, .serve 0, .deliver 0, .start true]

theorem guarded_oneByOne : Transition.Guarded (System.step twoProtocols id) Alone
    (new twoProtocols CHAT mailAndChat) oneByOne :=
  ⟨List.not_mem_nil, trivial, trivial, trivial, trivial,
    (by decide : true ∉ owners (Transition.run (System.step twoProtocols id)
      (new twoProtocols CHAT mailAndChat)
      [.start true, .serve 0, .deliver 0, .serve 0, .deliver 0])), trivial⟩

theorem no_handshake_failure_oneByOne :
    (Transition.run (System.step twoProtocols id) (new twoProtocols CHAT mailAndChat)
      oneByOne).failures = [] ∧
    ∀ i, (Transition.run (System.step twoProtocols id) (new twoProtocols CHAT mailAndChat)
      oneByOne).sent i ≤ (Transition.run (System.step twoProtocols id)
        (new twoProtocols CHAT mailAndChat) oneByOne).calls i + 1 :=
  no_handshake_failure Function.injective_id injOn_twoProtocols rfl (fun _ => rfl)
    guarded_oneByOne _ (Transition.run_mem_states _ _ _)

end System

end Alone

end HadoopExamples.Avro
