import HadoopExamples.Platform.Python

set_option autoImplicit false

/-! # cm-dump-config and the listing order of the API

`printConfigChanges` sorts what the Cloudera Manager API lists at three levels: services by their
type, roles by their name and configuration entries by their name. Names separate the elements of a
list and types do not, so the dump is canonical exactly if the texts of services that share a type
commute (`printConfigChanges_canonical_iff`). -/

namespace HadoopExamples.ClouderaManager

open Python

/-! ## What the API returns -/

structure ApiConfig where
  value : Option PyString

/-- A configuration map, with its items in the order in which `items()` returns them. -/
structure ConfigMap where
  items : List (PyString × ApiConfig)
  nodup : (items.map Prod.fst).Nodup

structure ApiHostRef where
  hostId : PyString

structure ApiRole where
  name : PyString
  hostRef : ApiHostRef
  /-- `get_config(view='full')` -/
  config : ConfigMap

structure ApiService where
  name : PyString
  type : PyString
  displayName : PyString
  serviceUrl : PyString
  /-- `get_config(view='full')[0]` -/
  config : ConfigMap
  /-- `get_all_roles()` -/
  roles : List ApiRole
  nodup : (roles.map ApiRole.name).Nodup

structure ApiCluster where
  /-- `get_all_services()` -/
  services : List ApiService
  nodup : (services.map ApiService.name).Nodup

/-! ## The dump -/

/-- The line `"  %-70s: %s"`. -/
def printField (name value : PyString) : PyString :=
  print ("  ".toList ++ ljust 70 name ++ ": ".toList ++ value)

/-- An entry is printed if it has a value that is not empty. -/
def printConfig (item : PyString × ApiConfig) : PyString :=
  match truthy item.2.value with
  | some value => printField item.1 value
  | none => []

/-- The loop over the configuration of a service or of a role. -/
def printConfigMap (config : ConfigMap) : PyString :=
  (sorted config.items Prod.fst).flatMap printConfig

def printRole (role : ApiRole) : PyString :=
  print ("  ".toList ++ center '-' 130 "  ROLE  ".toList) ++
  printField "Role name".toList role.name ++
  printField "Role hostId".toList role.hostRef.hostId ++
  printConfigMap role.config

def printService (service : ApiService) : PyString :=
  print (center '+' 130 ['+']) ++
  print ("  SERVICE : [".toList ++ service.type ++ " - ".toList ++ service.displayName ++
    ", URL: ".toList ++ service.serviceUrl ++ "]".toList) ++
  print (center '=' 130 ['=']) ++
  printConfigMap service.config ++
  (sorted service.roles ApiRole.name).flatMap printRole

def printConfigChanges (cluster : ApiCluster) : PyString :=
  (sorted cluster.services ApiService.type).flatMap printService

/-! ## Listing the same cluster again -/

/-- Two lists of the same elements up to their order, where `R` relates two listings of one
    element. -/
def Relisting {β : Type} (R : β → β → Prop) (l l' : List β) : Prop :=
  ∃ m, l.Perm m ∧ List.Forall₂ R m l'

def ConfigMap.Relisting (config config' : ConfigMap) : Prop :=
  config.items.Perm config'.items

structure ApiRole.Relisting (role role' : ApiRole) : Prop where
  name : role.name = role'.name
  hostRef : role.hostRef = role'.hostRef
  config : role.config.Relisting role'.config

structure ApiService.Relisting (service service' : ApiService) : Prop where
  name : service.name = service'.name
  type : service.type = service'.type
  displayName : service.displayName = service'.displayName
  serviceUrl : service.serviceUrl = service'.serviceUrl
  config : service.config.Relisting service'.config
  roles : ClouderaManager.Relisting ApiRole.Relisting service.roles service'.roles

def ApiCluster.Relisting (cluster cluster' : ApiCluster) : Prop :=
  ClouderaManager.Relisting ApiService.Relisting cluster.services cluster'.services

theorem ConfigMap.Relisting.refl (config : ConfigMap) : config.Relisting config :=
  List.Perm.refl _

theorem ApiRole.Relisting.refl (role : ApiRole) : role.Relisting role :=
  ⟨rfl, rfl, .refl _⟩

theorem ApiService.Relisting.refl (service : ApiService) : service.Relisting service :=
  ⟨rfl, rfl, rfl, rfl, .refl _, service.roles, .refl _,
    List.forall₂_same.2 fun role _ => .refl role⟩

/-! ## Levels that are sorted by name -/

theorem printConfigMap_relisting {config config' : ConfigMap} (h : config.Relisting config') :
    printConfigMap config = printConfigMap config' :=
  KeySort.report_perm (KeySort.tiesCommute_of_nodup config.nodup printConfig) h

theorem printRole_relisting {role role' : ApiRole} (h : role.Relisting role') :
    printRole role = printRole role' := by
  unfold printRole
  rw [h.name, h.hostRef, printConfigMap_relisting h.config]

theorem printService_relisting {service service' : ApiService} (h : service.Relisting service') :
    printService service = printService service' := by
  obtain ⟨m, hperm, hroles⟩ := h.roles
  have htext : (sorted service.roles ApiRole.name).flatMap printRole
      = (sorted service'.roles ApiRole.name).flatMap printRole :=
    KeySort.report_congr (KeySort.tiesCommute_of_nodup service.nodup printRole) hperm hroles
      (fun _ _ hrole => hrole.name) fun _ _ hrole => printRole_relisting hrole
  unfold printService
  rw [h.type, h.displayName, h.serviceUrl, printConfigMap_relisting h.config, htext]

/-! ## Services, sorted by type -/

theorem ApiCluster.Relisting.refl (cluster : ApiCluster) : cluster.Relisting cluster :=
  ⟨cluster.services, .refl _, List.forall₂_same.2 fun service _ => .refl service⟩

/-- Another order of the services is another listing of the cluster. -/
theorem relisting_of_perm {cluster cluster' : ApiCluster}
    (h : cluster.services.Perm cluster'.services) : cluster.Relisting cluster' :=
  ⟨cluster'.services, h, List.forall₂_same.2 fun service _ => .refl service⟩

theorem printConfigChanges_relisting {cluster cluster' : ApiCluster}
    (hties : KeySort.TiesCommute ApiService.type printService cluster.services)
    (h : cluster.Relisting cluster') : printConfigChanges cluster = printConfigChanges cluster' := by
  obtain ⟨m, hperm, hservices⟩ := h
  exact KeySort.report_congr hties hperm hservices (fun _ _ hservice => hservice.type)
    fun _ _ hservice => printService_relisting hservice

/-- All listings of a cluster have one dump. -/
def Canonical (cluster : ApiCluster) : Prop :=
  ∀ cluster₁ cluster₂, cluster.Relisting cluster₁ → cluster.Relisting cluster₂ →
    printConfigChanges cluster₁ = printConfigChanges cluster₂

theorem canonical_of_tiesCommute {cluster : ApiCluster}
    (hties : KeySort.TiesCommute ApiService.type printService cluster.services) :
    Canonical cluster := by
  intro cluster₁ cluster₂ h₁ h₂
  rw [← printConfigChanges_relisting hties h₁, ← printConfigChanges_relisting hties h₂]

theorem canonical_of_nodup_type {cluster : ApiCluster}
    (htype : (cluster.services.map ApiService.type).Nodup) : Canonical cluster :=
  canonical_of_tiesCommute (KeySort.tiesCommute_of_nodup htype printService)

/-- The dump of a cluster does not depend on how the API lists it if and only if the sections of
    any two services of one type can be exchanged. It is enough that no two share a type. -/
theorem printConfigChanges_canonical_iff (cluster : ApiCluster) :
    (Canonical cluster ↔
      ∀ s ∈ cluster.services, ∀ t ∈ cluster.services, s.type = t.type →
        printService s ++ printService t = printService t ++ printService s) ∧
    ((cluster.services.map ApiService.type).Nodup → Canonical cluster) := by
  refine ⟨⟨fun h => ?_, fun hties => canonical_of_tiesCommute hties⟩, canonical_of_nodup_type⟩
  refine KeySort.report_perm_iff.1 fun services hperm => ?_
  have hnodup : (services.map ApiService.name).Nodup := (hperm.map _).nodup_iff.1 cluster.nodup
  exact h ⟨services, hnodup⟩ cluster (relisting_of_perm hperm) (.refl cluster)

/-- An HDFS service without roles, in its default configuration. -/
def hdfs (name displayName : PyString) : ApiService where
  name := name
  type := "HDFS".toList
  displayName := displayName
  serviceUrl := "http://cm".toList
  config := ⟨[], List.nodup_nil⟩
  roles := []
  nodup := List.nodup_nil

def liveFirst : ApiCluster :=
  ⟨[hdfs "hdfs1".toList "live".toList, hdfs "hdfs2".toList "backup".toList], by decide⟩

def backupFirst : ApiCluster :=
  ⟨[hdfs "hdfs2".toList "backup".toList, hdfs "hdfs1".toList "live".toList], by decide⟩

/-- Two services of type `HDFS` come in the order in which the API lists them. -/
theorem printConfigChanges_listing_order :
    liveFirst.Relisting liveFirst ∧ liveFirst.Relisting backupFirst ∧
    printConfigChanges liveFirst ≠ printConfigChanges backupFirst := by
  refine ⟨.refl _, relisting_of_perm (List.Perm.swap ..), ?_⟩
  decide +kernel

end HadoopExamples.ClouderaManager
