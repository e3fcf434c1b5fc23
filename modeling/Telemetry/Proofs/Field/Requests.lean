import Mathlib.Data.Finset.Card
import Telemetry.Proofs.Field.Recall

/-!
# What a cache has been asked

A request names an object and a field of it, and the cache files its answer
under the type of the object and the field. Whatever was asked before, the
cache then holds for each of these pairs what discovery found on the object
that came with it first (`Cache.find?_serve`). Objects of one type need not have
the same getters: a later object is answered from the table of the first one.
-/

namespace Telemetry.Field

structure Request where
  target : Object
  field : String

def Request.key (request : Request) : TypeKey × String :=
  (request.target.type, request.field)

def Request.discovered (request : Request) : Option Accessor :=
  discover request.target.names request.field

def firstAsked? (requests : List Request) (key : TypeKey × String) : Option Request :=
  requests.find? (·.key = key)

namespace Cache

/-- The answers to requests that come one after the other, and the cache after
the last of them. -/
def serve (cache : Cache) : List Request → List (Option Accessor) × Cache
  | [] => ([], cache)
  | request :: rest =>
    let (found, next) := cache.resolve request.target request.field
    let (later, last) := next.serve rest
    (found :: later, last)

variable (cache : Cache)

theorem serve_append (requests later : List Request) :
    cache.serve (requests ++ later) =
      ((cache.serve requests).1 ++ ((cache.serve requests).2.serve later).1,
        ((cache.serve requests).2.serve later).2) := by
  induction requests generalizing cache with
  | nil => rfl
  | cons request rest ih => simp only [List.cons_append, serve, ih]

-- ---------------------------------------------------------------------------
-- What is known
-- ---------------------------------------------------------------------------

theorem resolve_fst (target : Object) (field : String) :
    (cache.resolve target field).1 =
      (cache.find? target.type field).getD (discover target.names field) := by
  cases hf : cache.find? target.type field with
  | some known => rw [resolve_known hf, Option.getD_some]
  | none => rw [resolve_unknown hf, Option.getD_none]

theorem find?_serve (requests : List Request) (type : TypeKey) (field : String) :
    (cache.serve requests).2.find? type field =
      (cache.find? type field).or
        ((firstAsked? requests (type, field)).map Request.discovered) := by
  induction requests generalizing cache with
  | nil => exact Option.or_none.symm
  | cons request rest ih =>
    refine (ih (cache.resolve request.target request.field).2).trans ?_
    rw [find?_resolve]
    by_cases hkey : request.key = (type, field)
    · -- the answer to this request is what the cache knew, or what is found now
      obtain ⟨rfl, rfl⟩ := Prod.mk.inj hkey
      rw [if_pos rfl, Option.some_or, resolve_fst, firstAsked?, List.find?_cons_of_pos (by simp; rfl),
        Option.map_some]
      cases cache.find? request.target.type request.field <;> rfl
    · have hother : ¬ (request.target.type, request.field) = (type, field) := hkey
      rw [if_neg hother, firstAsked?, firstAsked?, List.find?_cons_of_neg (by simpa using hkey)]

theorem keeps_serve (requests : List Request) : (cache.serve requests).2.Keeps cache := by
  intro type field found h
  rw [find?_serve, h, Option.some_or]

theorem serve_answers (requests : List Request) :
    (cache.serve requests).1 = requests.map fun request =>
      ((cache.serve requests).2.find? request.target.type request.field).join := by
  induction requests generalizing cache with
  | nil => rfl
  | cons request rest ih =>
    have hknown := (cache.resolve request.target request.field).2.keeps_serve rest _ _ _
      ((cache.find?_resolve request.target request.field _ _).trans (if_pos rfl))
    simp only [serve, List.map_cons, hknown]
    exact congrArg _ (ih (cache.resolve request.target request.field).2)

-- ---------------------------------------------------------------------------
-- Entries
-- ---------------------------------------------------------------------------

theorem contains_iff_mem_keys (type : TypeKey) (field : String) :
    cache.contains type field = true ↔ (type, field) ∈ cache.entries.map (·.1) := by
  rw [contains, find?, Option.isSome_iff_ne_none, Ne, Entries.get?_eq_none_iff, not_not]

variable {cache}

theorem keys_nodup_resolve (distinct : (cache.entries.map (·.1)).Nodup) (target : Object)
    (field : String) : ((cache.resolve target field).2.entries.map (·.1)).Nodup := by
  cases hf : cache.find? target.type field with
  | some known => rwa [resolve_known hf]
  | none =>
    rw [resolve_unknown hf, List.map_append, List.map_singleton, ← List.concat_eq_append]
    exact distinct.concat (Entries.get?_eq_none_iff.mp hf)

theorem keys_nodup_serve (distinct : (cache.entries.map (·.1)).Nodup) (requests : List Request) :
    ((cache.serve requests).2.entries.map (·.1)).Nodup := by
  induction requests generalizing cache with
  | nil => exact distinct
  | cons request rest ih => exact ih (keys_nodup_resolve distinct request.target request.field)

theorem contains_serve_empty (requests : List Request) (type : TypeKey) (field : String) :
    (serve {} requests).2.contains type field = true ↔
      ∃ request ∈ requests, request.target.type = type ∧ request.field = field := by
  have hnothing : find? {} type field = none := rfl
  rw [contains, find?_serve, hnothing, Option.none_or, Option.isSome_map, firstAsked?,
    List.find?_isSome]
  simp [Request.key]

theorem size_serve_empty (requests : List Request) :
    (serve {} requests).2.size = (requests.map Request.key).toFinset.card := by
  have hkeys : ((serve {} requests).2.entries.map (·.1)).toFinset =
      (requests.map Request.key).toFinset := by
    ext ⟨type, field⟩
    rw [List.mem_toFinset, List.mem_toFinset, ← contains_iff_mem_keys, contains_serve_empty]
    simp [Request.key]
  have hempty : (({} : Cache).entries.map (·.1)).Nodup := List.nodup_nil
  have hdistinct := keys_nodup_serve hempty requests
  rw [← hkeys, List.toFinset_card_of_nodup hdistinct, List.length_map, size]

/-- A cache that was empty answers a request with what discovery finds on the
object of the first request for the same field of the same type, whether that
is a getter or none. It knows the pairs that were asked for and no others, holds
one entry for each, and keeps them whatever is asked later. -/
theorem serve_first (requests : List Request) :
    ((serve {} requests).1 = requests.map fun request =>
        (firstAsked? requests request.key).bind Request.discovered) ∧
      (∀ type field, (serve {} requests).2.find? type field =
        (firstAsked? requests (type, field)).map Request.discovered) ∧
      (∀ later, (serve {} (requests ++ later)).2.Keeps (serve {} requests).2) ∧
      (∀ type field, (serve {} requests).2.contains type field = true ↔
        ∃ request ∈ requests, request.target.type = type ∧ request.field = field) ∧
      (serve {} requests).2.size = (requests.map Request.key).toFinset.card := by
  have hknown (type : TypeKey) (field : String) : (serve {} requests).2.find? type field =
      (firstAsked? requests (type, field)).map Request.discovered :=
    (find?_serve {} requests type field).trans Option.none_or
  refine ⟨?_, hknown, ?_, contains_serve_empty requests, size_serve_empty requests⟩
  · rw [serve_answers]
    refine List.map_congr_left fun request _ => ?_
    rw [hknown]
    exact Option.bind_map
  · intro later
    rw [serve_append]
    exact keeps_serve _ later

end Cache

end Telemetry.Field
