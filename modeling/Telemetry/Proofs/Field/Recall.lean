import Telemetry.Proofs.Field.Conformity

/-!
# What a cache recalls

A cache only grows: what it knows of a field it knows for good, whether that
was right or not. So a walk that is taken again gives what it gave before, even
where objects of one type have different getters. `Cache.Echoes` ties the
cache of a second run to that of the first: it knows what the first knows at
this point, and contradicts nothing that the first knows in the end. A step
that both take keeps that and gives both the same (`World.Echoes.traverse`);
and a cache that knows all that the first knows in the end stays as it is.
-/

namespace Telemetry.Field

def Cache.Keeps (later earlier : Cache) : Prop :=
  ∀ type field found, earlier.find? type field = some found → later.find? type field = some found

def Cache.Consistent (first second : Cache) : Prop :=
  ∀ type field found other, first.find? type field = some found →
    second.find? type field = some other → found = other

theorem Cache.keeps_self (cache : Cache) : cache.Keeps cache :=
  fun _ _ _ h => h

theorem Cache.Keeps.trans {first second third : Cache} (h : third.Keeps second)
    (h' : second.Keeps first) : third.Keeps first :=
  fun type field found hfound => h type field found (h' type field found hfound)

theorem Cache.keeps_empty (cache : Cache) : cache.Keeps {} := by
  intro type field found h
  simp [Cache.find?, Entries.get?] at h

theorem Cache.Keeps.consistent {later earlier : Cache} (h : later.Keeps earlier) :
    earlier.Consistent later := by
  intro type field found other hfound hother
  have hkept := h type field found hfound
  exact Option.some.inj (hkept.symm.trans hother)

theorem Cache.Consistent.symm {first second : Cache} (h : first.Consistent second) :
    second.Consistent first :=
  fun type field found other hfound hother => (h type field other found hother hfound).symm

-- ---------------------------------------------------------------------------
-- Fields of an object
-- ---------------------------------------------------------------------------

theorem Cache.resolve_known {cache : Cache} {target : Object} {field : String}
    {known : Option Accessor} (h : cache.find? target.type field = some known) :
    cache.resolve target field = (known, cache) := by
  simp only [Cache.resolve, h]

theorem Cache.resolve_unknown {cache : Cache} {target : Object} {field : String}
    (h : cache.find? target.type field = none) :
    cache.resolve target field = (discover target.names field,
      ⟨cache.entries ++ [((target.type, field), discover target.names field)]⟩) := by
  simp only [Cache.resolve, h]

/-- A field that is resolved is known from then on, and nothing else changes. -/
theorem Cache.find?_resolve (cache : Cache) (target : Object) (field : String) (type : TypeKey)
    (name : String) :
    (cache.resolve target field).2.find? type name =
      if (target.type, field) = (type, name) then some (cache.resolve target field).1
      else cache.find? type name := by
  cases hf : cache.find? target.type field with
  | some known =>
    rw [Cache.resolve_known hf]
    split
    · rename_i hkey
      cases hkey
      exact hf
    · rfl
  | none =>
    rw [Cache.resolve_unknown hf]
    simp only [Cache.find?, Entries.get?_append, Entries.get?] at hf ⊢
    split
    · rename_i hkey
      cases hkey
      rw [hf, Option.none_or]
    · exact Option.or_none

theorem Cache.keeps_resolve (cache : Cache) (target : Object) (field : String) :
    (cache.resolve target field).2.Keeps cache := by
  intro type name found h
  rw [Cache.find?_resolve]
  split
  · rename_i hkey
    cases hkey
    rw [Cache.resolve_known h]
  · exact h

theorem keeps_walk (cache : Cache) (v : Value) (path : List String) :
    (walk cache v path).2.Keeps cache := by
  induction path generalizing cache v with
  | nil => simpa [walk] using cache.keeps_self
  | cons segment rest ih =>
    cases v with
    | object target =>
      have hstep := cache.keeps_resolve target segment
      simp only [walk]
      rcases hr : cache.resolve target segment with ⟨_ | accessor, next⟩
      · exact (congrArg Prod.snd hr) ▸ hstep
      · rw [hr] at hstep
        dsimp only
        cases accessor.invoke target with
        | none => exact hstep
        | some w => exact (ih next w).trans hstep
    | _ => simpa [walk] using cache.keeps_self

theorem Source.keeps_lookup (source : Source σ) (name : String) (w : World σ) :
    (source.lookup name w).2.cache.Keeps w.cache := by
  cases source with
  | provider lookup => exact w.cache.keeps_self
  | reflected target => exact w.cache.keeps_resolve target name

theorem Source.keeps_traverse (source : Source σ) (first : String) (rest : List String)
    (w : World σ) : (source.traverse (first :: rest) w).2.cache.Keeps w.cache := by
  have hlookup := source.keeps_lookup first w
  simp only [Source.traverse]
  rcases hl : source.lookup first w with ⟨reading, next⟩
  rw [hl] at hlookup
  cases reading with
  | value v => exact (keeps_walk next.cache v rest).trans hlookup
  | _ => exact hlookup

-- ---------------------------------------------------------------------------
-- The same step in a second run
-- ---------------------------------------------------------------------------

/-- A second run has `later` where the first had `earlier`; `last` is what the
first ended with. -/
structure Cache.Echoes (last earlier later : Cache) : Prop where
  keeps : later.Keeps earlier
  consistent : later.Consistent last

variable {last earlier later : Cache}

theorem Cache.Echoes.resolve (h : Cache.Echoes last earlier later) (target : Object)
    (field : String) (hlast : last.Keeps (earlier.resolve target field).2) :
    (later.resolve target field).1 = (earlier.resolve target field).1 ∧
      Cache.Echoes last (earlier.resolve target field).2 (later.resolve target field).2 ∧
      (later.Keeps last → (later.resolve target field).2 = later) := by
  have hfinal : last.find? target.type field = some (earlier.resolve target field).1 := by
    apply hlast
    rw [Cache.find?_resolve, if_pos rfl]
  have hsame : (later.resolve target field).1 = (earlier.resolve target field).1 := by
    cases hl : later.find? target.type field with
    | some known =>
      rw [Cache.resolve_known hl]
      exact h.consistent _ _ _ _ hl hfinal
    | none =>
      -- the first run did not know the field at this point either
      have he : earlier.find? target.type field = none := by
        by_contra hne
        obtain ⟨known, hk⟩ := Option.ne_none_iff_exists'.mp hne
        simp [h.keeps _ _ _ hk] at hl
      rw [Cache.resolve_unknown hl, Cache.resolve_unknown he]
  refine ⟨hsame, ⟨?_, ?_⟩, ?_⟩
  · intro type name found hfound
    rw [Cache.find?_resolve] at hfound ⊢
    split at hfound
    · rename_i hkey
      rw [if_pos hkey, hsame, hfound]
    · rename_i hkey
      rw [if_neg hkey]
      exact h.keeps _ _ _ hfound
  · intro type name found other hfound hother
    rw [Cache.find?_resolve] at hfound
    split at hfound
    · rename_i hkey
      cases hkey
      rw [hsame, ← hfinal, hother] at hfound
      exact (Option.some.inj hfound).symm
    · exact h.consistent _ _ _ _ hfound hother
  · intro hkeeps
    rw [Cache.resolve_known (hkeeps _ _ _ hfinal)]

theorem Cache.Echoes.walk (h : Cache.Echoes last earlier later) {v : Value} {path : List String}
    (hlast : last.Keeps (walk earlier v path).2) :
    (Field.walk later v path).1 = (Field.walk earlier v path).1 ∧
      Cache.Echoes last (Field.walk earlier v path).2 (Field.walk later v path).2 ∧
      (later.Keeps last → (Field.walk later v path).2 = later) := by
  induction path generalizing earlier later v with
  | nil => exact ⟨rfl, h, fun _ => rfl⟩
  | cons segment rest ih =>
    cases v with
    | object target =>
      simp only [Field.walk] at hlast ⊢
      have hresolve := h.resolve target segment
      rcases he : earlier.resolve target segment with ⟨found, earlier'⟩
      rcases hl : later.resolve target segment with ⟨found', later'⟩
      rw [he, hl] at hresolve
      rw [he] at hlast
      cases found with
      | none =>
        obtain ⟨rfl, hnext, hstays⟩ := hresolve hlast
        exact ⟨rfl, hnext, hstays⟩
      | some accessor =>
        dsimp only at hlast
        cases hi : accessor.invoke target with
        | none =>
          rw [hi] at hlast
          obtain ⟨rfl, hnext, hstays⟩ := hresolve hlast
          simp only [hi]
          exact ⟨trivial, hnext, hstays⟩
        | some w =>
          rw [hi] at hlast
          obtain ⟨rfl, hnext, hstays⟩ := hresolve (hlast.trans (keeps_walk earlier' w rest))
          obtain ⟨hsame, hend, hstays'⟩ := ih hnext hlast
          simp only [hi]
          refine ⟨hsame, hend, ?_⟩
          intro hkeeps
          have hunchanged : later' = later := hstays hkeeps
          subst hunchanged
          exact hstays' hkeeps
    | _ => exact ⟨rfl, h, fun _ => rfl⟩

-- ---------------------------------------------------------------------------
-- Sources
-- ---------------------------------------------------------------------------

def Source.Alike (source : Source σ) (state state' : σ) : Prop :=
  ∀ names name, (source.answer name (source.after names state)).1 =
    (source.answer name (source.after names state')).1

theorem Source.alike_self (source : Source σ) (state : σ) : source.Alike state state :=
  fun _ _ => rfl

theorem Source.lookup_state (source : Source σ) (name : String) (w : World σ) :
    (source.lookup name w).2.state = (source.answer name w.state).2 := by
  cases source <;> rfl

structure World.Echoes (source : Source σ) (last : Cache) (state state' : σ)
    (names : List String) (w w' : World σ) : Prop where
  reached : w.state = source.after names state
  reached' : w'.state = source.after names state'
  cache : Cache.Echoes last w.cache w'.cache

section
variable {source : Source σ} {state state' : σ} {names : List String} {w w' : World σ}

theorem World.Echoes.lookup (h : World.Echoes source last state state' names w w')
    (alike : source.Alike state state') (name : String)
    (hlast : last.Keeps (source.lookup name w).2.cache) :
    (source.lookup name w').1 = (source.lookup name w).1 ∧
      World.Echoes source last state state' (names ++ [name]) (source.lookup name w).2
        (source.lookup name w').2 ∧
      (w'.cache.Keeps last → (source.lookup name w').2.cache = w'.cache) := by
  have hreached : (source.lookup name w).2.state = source.after (names ++ [name]) state := by
    rw [source.lookup_state, source.after_append, h.reached]
  have hreached' : (source.lookup name w').2.state = source.after (names ++ [name]) state' := by
    rw [source.lookup_state, source.after_append, h.reached']
  cases source with
  | provider lookup =>
    refine ⟨?_, ⟨hreached, hreached', h.cache⟩, fun _ => rfl⟩
    have hsame := alike names name
    rw [← h.reached, ← h.reached'] at hsame
    exact hsame.symm
  | reflected target =>
    obtain ⟨hsame, hnext, hstays⟩ := h.cache.resolve target name hlast
    refine ⟨?_, ⟨hreached, hreached', hnext⟩, hstays⟩
    exact congrArg (fun found => Reading.ofOption (found.bind (·.invoke target))) hsame

theorem World.Echoes.traverse (h : World.Echoes source last state state' names w w')
    (alike : source.Alike state state') {first : String} {rest : List String}
    (hlast : last.Keeps (source.traverse (first :: rest) w).2.cache) :
    (source.traverse (first :: rest) w').1 = (source.traverse (first :: rest) w).1 ∧
      World.Echoes source last state state' (names ++ [first]) (source.traverse (first :: rest) w).2
        (source.traverse (first :: rest) w').2 ∧
      (w'.cache.Keeps last → (source.traverse (first :: rest) w').2.cache = w'.cache) := by
  have hlookup := h.lookup alike first
  simp only [Source.traverse] at hlast ⊢
  rcases hw : source.lookup first w with ⟨reading, next⟩
  rcases hw' : source.lookup first w' with ⟨reading', next'⟩
  rw [hw, hw'] at hlookup
  rw [hw] at hlast
  cases reading with
  | value v =>
    obtain ⟨rfl, hnext, hstays⟩ := hlookup (hlast.trans (keeps_walk next.cache v rest))
    obtain ⟨hsame, hend, hstays'⟩ := hnext.cache.walk hlast
    refine ⟨hsame, ⟨hnext.reached, hnext.reached', hend⟩, ?_⟩
    intro hkeeps
    have hunchanged : next'.cache = w'.cache := hstays hkeeps
    exact (hstays' (hunchanged ▸ hkeeps)).trans hunchanged
  | _ =>
    obtain ⟨rfl, hnext, hstays⟩ := hlookup hlast
    exact ⟨rfl, hnext, hstays⟩

end

-- ---------------------------------------------------------------------------
-- An object read through a cache of its own
-- ---------------------------------------------------------------------------

section
variable (target : Object)

theorem Source.ofObject_keeps (names : List String) (own : Cache) :
    ((Source.ofObject target).after names own).Keeps own := by
  induction names generalizing own with
  | nil => exact own.keeps_self
  | cons name rest ih => exact (ih _).trans (own.keeps_resolve target name)

theorem Source.ofObject_knows {names : List String} {name : String} (h : name ∈ names)
    (own : Cache) :
    ∃ known, ((Source.ofObject target).after names own).find? target.type name = some known := by
  induction names generalizing own with
  | nil => cases h
  | cons head rest ih =>
    rcases List.mem_cons.mp h with rfl | h
    · refine ⟨(own.resolve target name).1, Source.ofObject_keeps target rest _ _ _ _ ?_⟩
      exact (own.find?_resolve target name target.type name).trans (if_pos rfl)
    · exact ih h _

theorem Source.ofObject_twice (names : List String) (own : Cache) :
    (Source.ofObject target).after names ((Source.ofObject target).after names own) =
      (Source.ofObject target).after names own := by
  have hknown : ∀ name ∈ names, ∃ known, ((Source.ofObject target).after names own).find?
      target.type name = some known := fun name h => Source.ofObject_knows target h own
  generalize (Source.ofObject target).after names own = cache at hknown
  induction names with
  | nil => rfl
  | cons name rest ih =>
    obtain ⟨known, hk⟩ := hknown name (List.mem_cons_self ..)
    have hstep : ((Source.ofObject target).answer name cache).2 = cache :=
      congrArg Prod.snd (Cache.resolve_known hk)
    refine (congrArg ((Source.ofObject target).after rest) hstep).trans ?_
    exact ih fun other h => hknown other (List.mem_cons_of_mem _ h)

/-- What a cache of its own answers does not depend on what was asked before. -/
theorem Source.ofObject_repeats (names : List String) (name : String) (own : Cache) :
    ((Source.ofObject target).answer name ((Source.ofObject target).after names own)).1 =
      ((Source.ofObject target).answer name own).1 := by
  have hsame : ((Source.ofObject target).after names own |>.resolve target name).1 =
      (own.resolve target name).1 := by
    induction names generalizing own with
    | nil => rfl
    | cons head rest ih =>
      refine (ih (own.resolve target head).2).trans ?_
      have hstep := own.find?_resolve target head target.type name
      by_cases hname : head = name
      · subst hname
        rw [if_pos rfl] at hstep
        rw [Cache.resolve_known hstep]
      · rw [if_neg (by simp [hname])] at hstep
        cases hf : own.find? target.type name with
        | some known => rw [Cache.resolve_known (hstep.trans hf), Cache.resolve_known hf]
        | none => rw [Cache.resolve_unknown (hstep.trans hf), Cache.resolve_unknown hf]
  exact congrArg (fun found => Reading.ofOption (found.bind (·.invoke target))) hsame

end

end Telemetry.Field
