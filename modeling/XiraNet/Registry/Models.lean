import Mathlib.Data.List.Nodup
import XiraNet.Base
import XiraNet.Lib.Text

/-!
# Registered services

`registry/models.rs` and the parts of `config/mod.rs` it refers to. The source calls the path
prefix of a service `prefix`, a reserved word here; it is `pathPrefix` throughout.
-/

namespace XiraNet

/-- Header rules of a service, with each map as the list of its entries in iteration order. -/
structure TransformConfig where
  addRequestHeaders : List (String × String)
  removeRequestHeaders : List String
  addResponseHeaders : List (String × String)
  removeResponseHeaders : List String
  deriving DecidableEq, Repr

/-- One entry of `[[services]]` in the configuration file. -/
structure ServiceConfig where
  name : String
  pathPrefix : String
  upstream : String
  healthEndpoint : String
  upstreams : List String
  loadBalance : Option String
  version : Option String
  transform : Option TransformConfig
  validationSchema : Option String
  ipWhitelist : List String
  ipBlacklist : List String
  deriving DecidableEq, Repr

/-- The body of a registration request to the admin API. -/
structure RegisterServiceRequest where
  name : String
  pathPrefix : String
  upstream : String
  healthEndpoint : String
  upstreams : List String
  loadBalance : Option String
  version : Option String
  validationSchema : Option String
  ipWhitelist : List String
  ipBlacklist : List String
  transform : Option TransformConfig
  deriving DecidableEq, Repr

/-- The health of a service as last seen by the health checker. -/
inductive ServiceStatus
  | up
  | down
  | unknown
  deriving DecidableEq, Repr

/-- A registered service. -/
structure ServiceEntry where
  id : Uuid
  name : String
  pathPrefix : String
  upstream : String
  healthEndpoint : String
  status : ServiceStatus
  registeredAt : DateTime
  lastHealthCheck : Option DateTime
  requestCount : ℕ
  upstreams : List String
  loadBalance : Option String
  version : Option String
  validationSchema : Option String
  ipWhitelist : List String
  ipBlacklist : List String
  transform : Option TransformConfig
  deriving DecidableEq, Repr

namespace ServiceEntry

/-- The stored form of a registered prefix: a leading slash and no trailing one. -/
def normalizePrefix (pathPrefix : String) : String :=
  Text.trimEndMatches
    (if Text.startsWith pathPrefix "/" then pathPrefix else "/" ++ pathPrefix) '/'

/-- `ServiceEntry::new`, with the id and the time it draws. -/
def new (id : Uuid) (now : DateTime) (name pathPrefix upstream healthEndpoint : String) :
    ServiceEntry where
  id := id
  name := name
  pathPrefix := normalizePrefix pathPrefix
  upstream := Text.trimEndMatches upstream '/'
  healthEndpoint := healthEndpoint
  status := .unknown
  registeredAt := now
  lastHealthCheck := none
  requestCount := 0
  upstreams := []
  loadBalance := none
  version := none
  validationSchema := none
  ipWhitelist := []
  ipBlacklist := []
  transform := none

/-- The main upstream followed by the extra ones, without repetitions. -/
def allUpstreams (s : ServiceEntry) : List String :=
  s.upstreams.foldl (fun all u => if u ∈ all then all else all ++ [u]) [s.upstream]

/-- One more upstream is kept unless it is there already. -/
theorem mem_foldl_upstreams (u : String) (us all : List String) :
    u ∈ us.foldl (fun all u => if u ∈ all then all else all ++ [u]) all ↔ u ∈ all ∨ u ∈ us := by
  induction us generalizing all with
  | nil => simp
  | cons v us ih =>
      rw [List.foldl_cons, ih, List.mem_cons]
      split
      next hmem =>
        constructor
        · exact Or.imp_right .inr
        · rintro (hall | rfl | hus)
          · exact .inl hall
          · exact .inl hmem
          · exact .inr hus
      next => rw [List.mem_append, List.mem_singleton, or_assoc]

/-- The upstreams are the main one and the extra ones. -/
theorem mem_allUpstreams (s : ServiceEntry) (u : String) :
    u ∈ s.allUpstreams ↔ u = s.upstream ∨ u ∈ s.upstreams := by
  unfold allUpstreams
  rw [mem_foldl_upstreams, List.mem_singleton]

/-- The main upstream is one of the upstreams. -/
theorem upstream_mem_allUpstreams (s : ServiceEntry) : s.upstream ∈ s.allUpstreams :=
  (s.mem_allUpstreams _).mpr (.inl rfl)

/-- There is always an upstream. -/
theorem allUpstreams_ne_nil (s : ServiceEntry) : s.allUpstreams ≠ [] :=
  List.ne_nil_of_mem s.upstream_mem_allUpstreams

/-- No upstream is listed twice. -/
theorem nodup_allUpstreams (s : ServiceEntry) : s.allUpstreams.Nodup := by
  have hkept : ∀ (us all : List String), all.Nodup →
      (us.foldl (fun all u => if u ∈ all then all else all ++ [u]) all).Nodup := by
    intro us
    induction us with
    | nil => exact fun all h => h
    | cons u us ih =>
        intro all h
        apply ih
        dsimp only
        split
        next => exact h
        next hnew =>
          refine List.nodup_append.mpr ⟨h, List.nodup_singleton u, ?_⟩
          rintro v hv _ hu rfl
          exact hnew (List.mem_singleton.mp hu ▸ hv)
  exact hkept s.upstreams _ (List.nodup_singleton _)

end ServiceEntry

end XiraNet
