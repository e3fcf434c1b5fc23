import Telemetry.Proofs.Payload.Relisting

/-!
# Which path an attribute is read from

Paths are tried in their order, and the first that leads to a node which can be
read decides (`FirstRead`). A path that leads nowhere, and a node that is null,
rejected or of another kind, pass the turn on and stop nothing. The texts of a
count have their turn when no candidate is left, however good they are
(`BodyAttribute.resolve_first`). Of a tree only the nodes at the paths up to the
one that decides matter, and of an attribute only those paths. In what order the
maps of these nodes list their members makes no difference to which path decides,
but it does to the text of a node that is an object of several members
(`finishReasons_orders`).
-/

namespace Telemetry.Payload

variable {α : Type} {t t' : Tree} {read : Tree → Option α} {paths before : List String}
  {path : String} {a : α}

-- ---------------------------------------------------------------------------
-- Paths in turn
-- ---------------------------------------------------------------------------

def firstRead? (t : Tree) (read : Tree → Option α) (paths : List String) : Option α :=
  paths.findSome? fun path => (t.pointer path).bind read

def NoneRead (t : Tree) (read : Tree → Option α) (paths : List String) : Prop :=
  ∀ path ∈ paths, ∀ node, t.pointer path = some node → read node = none

/-- The paths in `before` lead to no node that can be read, and the path after
them, as many places from the front, leads to one that is read as `a`. -/
structure FirstRead (t : Tree) (read : Tree → Option α) (paths before : List String)
    (path : String) (a : α) : Prop where
  listed : before ++ [path] <+: paths
  passed : NoneRead t read before
  taken : ∃ node, t.pointer path = some node ∧ read node = some a

theorem firstRead?_eq_none_iff : firstRead? t read paths = none ↔ NoneRead t read paths := by
  simp only [firstRead?, List.findSome?_eq_none_iff, Option.bind_eq_none_iff, NoneRead]

theorem firstRead?_eq_some_iff :
    firstRead? t read paths = some a ↔ ∃ before path, FirstRead t read paths before path a := by
  simp only [firstRead?, List.findSome?_eq_some_iff, Option.bind_eq_some_iff,
    Option.bind_eq_none_iff]
  constructor
  · rintro ⟨before, path, after, rfl, taken, passed⟩
    exact ⟨before, path, ⟨after, by simp⟩, passed, taken⟩
  · rintro ⟨before, path, ⟨after, rfl⟩, passed, taken⟩
    exact ⟨before, path, after, by simp, taken, passed⟩

theorem map_firstRead? {β : Type} (f : α → β) :
    (firstRead? t read paths).map f = firstRead? t (fun node => (read node).map f) paths := by
  simp only [firstRead?, List.map_findSome?, Function.comp_def, Option.map_bind]

/-- The paths lead to the same nodes of both trees, but for the order in which maps
list their members. -/
def SameNodes (t t' : Tree) (paths : List String) : Prop :=
  ∀ path ∈ paths, ∃ ranking : Ranking, t'.pointer path = (t.pointer path).map (·.arrange ranking)

theorem SameNodes.mono (h : SameNodes t t' paths) (listed : before ⊆ paths) :
    SameNodes t t' before :=
  fun path hpath => h path (listed hpath)

theorem SameNodes.of_arrange (keys : t.All Tree.KeysDiffer) (ranking : Ranking)
    (paths : List String) : SameNodes t (t.arrange ranking) paths :=
  fun path _ => Tree.pointer_arrange keys ranking path

theorem NoneRead.relist (h : NoneRead t read paths) (same : SameNodes t t' paths)
    (blind : ∀ node (ranking : Ranking), read node = none → read (node.arrange ranking) = none) :
    NoneRead t' read paths := by
  intro path hpath node' hnode'
  obtain ⟨ranking, hsame⟩ := same path hpath
  obtain ⟨node, hnode, rfl⟩ := Option.map_eq_some_iff.mp (hsame.symm.trans hnode')
  exact blind node ranking (h path hpath node hnode)

/-- The path that decides is the same, and what it gives is too, but for the order
of members. -/
theorem FirstRead.relist {kind : Kind} {value : Attribute.Value}
    (h : FirstRead t kind.read? paths before path value)
    (same : SameNodes t t' (before ++ [path])) {others : List String}
    (listed : before ++ [path] <+: others) :
    ∃ value', FirstRead t' kind.read? others before path value' ∧ Relisted value value' ∧
      (t'.pointer path = t.pointer path → value' = value) := by
  obtain ⟨node, leads, hread⟩ := h.taken
  obtain ⟨ranking, hsame⟩ := same path (by simp)
  rw [leads, Option.map_some] at hsame
  have hpassed : NoneRead t' kind.read? before :=
    h.passed.relist (same.mono (List.subset_append_left ..))
      fun _ _ => Kind.read?_arrange_eq_none_iff.mpr
  obtain ⟨value', hread', hvalue⟩ := Kind.read?_arrange
    (show kind.read? (node.arrange .level) = some value by rwa [node.arrange_level]) ranking
  refine ⟨value', ⟨listed, hpassed, _, hsame, hread'⟩, hvalue, fun hnode => ?_⟩
  rw [hsame, leads] at hnode
  rw [Option.some.inj hnode] at hread'
  exact Option.some.inj (hread'.symm.trans hread)

theorem FirstRead.relist_text {s : String} (h : FirstRead t Tree.asString? paths before path s)
    (same : SameNodes t t' (before ++ [path])) {others : List String}
    (listed : before ++ [path] <+: others) : FirstRead t' Tree.asString? others before path s := by
  obtain ⟨node, leads, hread⟩ := h.taken
  obtain ⟨ranking, hsame⟩ := same path (by simp)
  rw [leads, Option.map_some] at hsame
  refine ⟨listed, h.passed.relist (same.mono (List.subset_append_left ..)) ?_, _, hsame, ?_⟩
  · exact fun node ranking hnone => (node.asString?_arrange ranking).trans hnone
  · exact (node.asString?_arrange ranking).trans hread

-- ---------------------------------------------------------------------------
-- Attributes
-- ---------------------------------------------------------------------------

theorem toOption_rendered (node : Tree) : (rendered node).toOption = node.render := by
  unfold rendered
  cases node.render <;> rfl

theorem toOption_estimated (node : Tree) :
    (estimated node).toOption = node.asString?.map approximateCount := by
  unfold estimated
  cases node.asString? <;> rfl

def BodyAttribute.direct? (wanted : BodyAttribute) (t : Tree) : Option Resolved :=
  (firstRead? t wanted.kind.read? wanted.candidates).map fun value => ⟨wanted.key, value, .direct⟩

def BodyAttribute.approximated? (wanted : BodyAttribute) (t : Tree) : Option Resolved :=
  if wanted.kind = .count then
    (wanted.textFallback.bind (firstRead? t Tree.asString?)).map fun s =>
      ⟨wanted.key, .int (approximateCount s), .approximated⟩
  else none

theorem BodyAttribute.resolve_eq (wanted : BodyAttribute) (t : Tree) :
    wanted.resolve t = (wanted.direct? t).or (wanted.approximated? t) := by
  have hmatch {β : Type} (paths : List String) (accept : Tree → Except Failure β) :
      firstMatch paths t accept = firstRead? t (fun node => (accept node).toOption) paths := rfl
  unfold resolve direct? approximated?
  cases hkind : wanted.kind with
  | text =>
    simp only [hmatch, toOption_rendered, map_firstRead?, Kind.read?, Option.map_map]
    simp [Function.comp_def]
  | sequence =>
    simp only [hmatch, toOption_rendered, map_firstRead?, Kind.read?, Option.map_map]
    simp [Function.comp_def]
  | probability =>
    simp only [hmatch, map_firstRead?, Kind.read?, Option.map_map]
    simp [Function.comp_def]
  | count =>
    have hread : firstRead? t Kind.count.read? wanted.candidates =
        (firstRead? t (fun node => node.toCount.toOption) wanted.candidates).map .int :=
      (map_firstRead? Attribute.Value.int).symm
    simp only [hmatch, toOption_estimated, hread, ← map_firstRead?]
    cases firstRead? t (fun node => node.toCount.toOption) wanted.candidates with
    | some n => rfl
    | none => cases wanted.textFallback <;> simp [Function.comp_def]

theorem BodyAttribute.direct?_eq_some_iff {wanted : BodyAttribute} {resolved : Resolved} :
    wanted.direct? t = some resolved ↔
      ∃ before path value, FirstRead t wanted.kind.read? wanted.candidates before path value ∧
        resolved = ⟨wanted.key, value, .direct⟩ := by
  simp only [direct?, Option.map_eq_some_iff, firstRead?_eq_some_iff]
  grind

theorem BodyAttribute.direct?_eq_none_iff {wanted : BodyAttribute} :
    wanted.direct? t = none ↔ NoneRead t wanted.kind.read? wanted.candidates := by
  rw [direct?, Option.map_eq_none_iff, firstRead?_eq_none_iff]

theorem BodyAttribute.approximated?_eq_some_iff {wanted : BodyAttribute} {resolved : Resolved} :
    wanted.approximated? t = some resolved ↔ wanted.kind = .count ∧
      ∃ paths before path s, wanted.textFallback = some paths ∧
        FirstRead t Tree.asString? paths before path s ∧
        resolved = ⟨wanted.key, .int (approximateCount s), .approximated⟩ := by
  simp only [approximated?, Option.ite_none_right_eq_some, Option.map_eq_some_iff,
    Option.bind_eq_some_iff, firstRead?_eq_some_iff]
  grind

theorem BodyAttribute.approximated?_eq_none_iff {wanted : BodyAttribute} :
    wanted.approximated? t = none ↔
      (wanted.kind = .count → ∀ paths, wanted.textFallback = some paths →
        NoneRead t Tree.asString? paths) := by
  simp only [approximated?, ite_eq_right_iff, Option.map_eq_none_iff, Option.bind_eq_none_iff,
    firstRead?_eq_none_iff]

/-- An attribute is read directly from the first candidate that leads to a node
of which its kind can make something. Only a count for which there is none is
approximated, by the first of its texts that is one. What decides is not changed
by another tree that has the same nodes at the paths up to there, nor by other
paths after it. If the maps of these nodes list their members in another order,
the same path decides, and only the text of a node with a map of several members
can be another. -/
theorem BodyAttribute.resolve_first (wanted : BodyAttribute) (t : Tree) :
    (∀ resolved, wanted.resolve t = some resolved ↔
      (∃ before path value, FirstRead t wanted.kind.read? wanted.candidates before path value ∧
        resolved = ⟨wanted.key, value, .direct⟩) ∨
      (NoneRead t wanted.kind.read? wanted.candidates ∧ wanted.kind = .count ∧
        ∃ paths before path s, wanted.textFallback = some paths ∧
          FirstRead t Tree.asString? paths before path s ∧
          resolved = ⟨wanted.key, .int (approximateCount s), .approximated⟩)) ∧
    (wanted.resolve t = none ↔ NoneRead t wanted.kind.read? wanted.candidates ∧
      (wanted.kind = .count → ∀ paths, wanted.textFallback = some paths →
        NoneRead t Tree.asString? paths)) ∧
    (∀ before path value, FirstRead t wanted.kind.read? wanted.candidates before path value →
      ∀ (t' : Tree) (candidates : List String) (textFallback : Option (List String)),
        SameNodes t t' (before ++ [path]) → before ++ [path] <+: candidates →
        ∃ value', ({ wanted with candidates, textFallback } : BodyAttribute).resolve t' =
            some ⟨wanted.key, value', .direct⟩ ∧ Relisted value value' ∧
          (t'.pointer path = t.pointer path → value' = value)) ∧
    ∀ paths before path s, NoneRead t wanted.kind.read? wanted.candidates → wanted.kind = .count →
      wanted.textFallback = some paths → FirstRead t Tree.asString? paths before path s →
      ∀ (t' : Tree) (fallback : List String),
        SameNodes t t' (wanted.candidates ++ before ++ [path]) → before ++ [path] <+: fallback →
        ({ wanted with textFallback := some fallback } : BodyAttribute).resolve t' =
          some ⟨wanted.key, .int (approximateCount s), .approximated⟩ := by
  have hiff (wanted : BodyAttribute) (t : Tree) (resolved : Resolved) :
      wanted.resolve t = some resolved ↔
        wanted.direct? t = some resolved ∨
          wanted.direct? t = none ∧ wanted.approximated? t = some resolved := by
    rw [wanted.resolve_eq, Option.or_eq_some_iff]
  refine ⟨?_, ?_, ?_, ?_⟩
  · intro resolved
    rw [hiff, direct?_eq_some_iff, direct?_eq_none_iff, approximated?_eq_some_iff]
  · rw [wanted.resolve_eq, Option.or_eq_none_iff, direct?_eq_none_iff,
      approximated?_eq_none_iff]
  · intro before path value first t' candidates textFallback same listed
    obtain ⟨value', first', hvalue, hexact⟩ := first.relist same listed
    refine ⟨value', ?_, hvalue, hexact⟩
    rw [hiff]
    exact .inl (direct?_eq_some_iff.mpr ⟨before, path, value', first', rfl⟩)
  · intro paths before path s none count given first t' fallback same listed
    rw [hiff]
    rw [List.append_assoc] at same
    refine .inr ⟨direct?_eq_none_iff.mpr ?_, approximated?_eq_some_iff.mpr ?_⟩
    · exact none.relist (same.mono (List.subset_append_left ..))
        fun _ _ => Kind.read?_arrange_eq_none_iff.mpr
    · exact ⟨count, fallback, before, path, s, rfl,
        first.relist_text (same.mono (List.subset_append_right ..)) listed, rfl⟩

def objectReason : Tree :=
  .object [("stopReason", .object [("b", .integer 1), ("a", .integer 2)])]

def aFirst : Ranking :=
  fun _ key => if key = "a" then 0 else 1

/-- Two orders of one map give two texts. -/
theorem finishReasons_orders :
    SameNodes objectReason (objectReason.arrange aFirst) ["/stopReason"] ∧
      finishReasons.resolve objectReason =
        some ⟨Attribute.Key.finishReasons, .text "[\x7b\"b\":1,\"a\":2\x7d]", .direct⟩ ∧
      finishReasons.resolve (objectReason.arrange aFirst) =
        some ⟨Attribute.Key.finishReasons, .text "[\x7b\"a\":2,\"b\":1\x7d]", .direct⟩ := by
  have hkeys : objectReason.All Tree.KeysDiffer := by
    simp [objectReason, Tree.All, allMembers, Tree.KeysDiffer]
  exact ⟨.of_arrange hkeys aFirst _, by decide, by decide⟩

-- A null and a fraction pass the turn on; the prompt, a text, does not get it.
example :
    let t : Tree := .object [("prompt", .string "seven"), ("inputTextTokenCount", .null),
      ("prompt_token_count", .fraction 0.5), ("usage", .object [("input_tokens", .string " 7 ")])]
    inputTokens.resolve t = some ⟨Attribute.Key.inputTokens, .int 7, .direct⟩ := by
  decide

-- ---------------------------------------------------------------------------
-- Two orders of one tree
-- ---------------------------------------------------------------------------

theorem firstRead?_congr {α : Type} {read : Tree → Option α} {paths : List String}
    (h : ∀ path ∈ paths, (t.pointer path).bind read = (t'.pointer path).bind read) :
    firstRead? t read paths = firstRead? t' read paths := by
  unfold firstRead?
  induction paths with
  | nil => rfl
  | cons path paths ih =>
    rw [List.findSome?_cons, List.findSome?_cons, h path (List.mem_cons_self ..),
      ih fun other hother => h other (List.mem_cons_of_mem _ hother)]

theorem firstRead?_arrange {α : Type} {read : Tree → Option α} (keys : t.All Tree.KeysDiffer)
    (ranking : Ranking)
    (blind : ∀ node (ranking : Ranking), read (node.arrange ranking) = read node)
    (paths : List String) :
    firstRead? (t.arrange ranking) read paths = firstRead? t read paths := by
  refine firstRead?_congr fun path _ => ?_
  obtain ⟨inner, hinner⟩ := Tree.pointer_arrange keys ranking path
  rw [hinner]
  cases t.pointer path with
  | none => rfl
  | some node => exact blind node inner

/-- A count is the same in every order of members. -/
theorem BodyAttribute.resolve_arrange {wanted : BodyAttribute} (count : wanted.kind = .count)
    (keys : t.All Tree.KeysDiffer) (ranking : Ranking) :
    wanted.resolve (t.arrange ranking) = wanted.resolve t := by
  have htext : firstRead? (t.arrange ranking) Tree.asString? = firstRead? t Tree.asString? :=
    funext (firstRead?_arrange keys ranking Tree.asString?_arrange)
  rw [wanted.resolve_eq, wanted.resolve_eq, direct?, direct?, approximated?, approximated?, htext,
    firstRead?_arrange keys ranking fun node ranking =>
      Kind.read?_arrange_number (.inl count) node ranking]

theorem firstRead?_relisted (keys : t.All Tree.KeysDiffer) (kind : Kind)
    (ranking ranking' : Ranking) (paths : List String) :
    Option.Rel Relisted (firstRead? (t.arrange ranking) kind.read? paths)
      (firstRead? (t.arrange ranking') kind.read? paths) := by
  induction paths with
  | nil => exact .none
  | cons path paths ih =>
    obtain ⟨inner, hinner⟩ := Tree.pointer_arrange keys ranking path
    obtain ⟨inner', hinner'⟩ := Tree.pointer_arrange keys ranking' path
    simp only [firstRead?, List.findSome?_cons, hinner, hinner'] at ih ⊢
    cases t.pointer path with
    | none => exact ih
    | some node =>
      simp only [Option.map_some, Option.bind_some]
      cases hread : kind.read? (node.arrange inner) with
      | none =>
        rw [Kind.read?_arrange_eq_none_iff.mpr (Kind.read?_arrange_eq_none_iff.mp hread)]
        exact ih
      | some value =>
        obtain ⟨value', hread', hvalue⟩ := Kind.read?_arrange hread inner'
        rw [hread']
        exact .some hvalue

/-- Bodies that differ in nothing but the order of members have the same attribute, up
to this order. -/
theorem BodyAttribute.resolve_relisted (keys : t.All Tree.KeysDiffer) (wanted : BodyAttribute)
    (ranking ranking' : Ranking) :
    Option.Rel Resolved.Relisted (wanted.resolve (t.arrange ranking))
      (wanted.resolve (t.arrange ranking')) := by
  have htext (ranking : Ranking) :
      wanted.approximated? (t.arrange ranking) = wanted.approximated? t := by
    simp only [approximated?, funext (firstRead?_arrange keys ranking Tree.asString?_arrange)]
  rw [wanted.resolve_eq, wanted.resolve_eq, htext, htext, direct?, direct?]
  have hdirect := firstRead?_relisted keys wanted.kind ranking ranking' wanted.candidates
  generalize firstRead? (t.arrange ranking) _ wanted.candidates = value? at hdirect ⊢
  generalize firstRead? (t.arrange ranking') _ wanted.candidates = value?' at hdirect ⊢
  cases hdirect with
  | none =>
    rw [Option.map_none, Option.none_or]
    cases wanted.approximated? t with
    | none => exact .none
    | some resolved => exact .some ⟨rfl, rfl, .same _⟩
  | some h => exact .some ⟨rfl, rfl, h⟩

end Telemetry.Payload
