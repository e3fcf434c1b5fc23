import Telemetry.Proofs.Payload.Values

/-!
# What a node is read as in another order

The order in which the maps of a node list their members does not decide whether
the node can be read (`Kind.read?_arrange_eq_none_iff`), and of what it is read as
it changes a text at most: the text of a container that has a map with several
members (`Kind.read?_arrange`).
-/

namespace Telemetry.Payload

/-- The same value, or the two are texts of one node, whose maps list their members
in two orders. -/
inductive Relisted : Attribute.Value → Attribute.Value → Prop
  | same (value : Attribute.Value) : Relisted value value
  | listed {kind : Kind} {node : Tree} (crowded : ¬ node.All Tree.FewMembers)
      {ranking ranking' : Ranking} {value value' : Attribute.Value}
      (read : kind.read? (node.arrange ranking) = some value)
      (read' : kind.read? (node.arrange ranking') = some value') : Relisted value value'

structure Resolved.Relisted (resolved resolved' : Resolved) : Prop where
  key : resolved'.key = resolved.key
  derivation : resolved'.derivation = resolved.derivation
  value : Payload.Relisted resolved.value resolved'.value

variable {kind : Kind} {node : Tree} {value value' : Attribute.Value}

-- ---------------------------------------------------------------------------
-- Nodes
-- ---------------------------------------------------------------------------

theorem Tree.toCount_arrange (t : Tree) (ranking : Ranking) :
    (t.arrange ranking).toCount = t.toCount := by
  cases t with
  | object members => rw [Tree.arrange]; rfl
  | array items => rw [Tree.arrange]; rfl
  | _ => rfl

theorem Tree.toProbability_arrange (t : Tree) (ranking : Ranking) :
    (t.arrange ranking).toProbability = t.toProbability := by
  cases t with
  | object members => rw [Tree.arrange]; rfl
  | array items => rw [Tree.arrange]; rfl
  | _ => rfl

theorem Tree.asString?_arrange (t : Tree) (ranking : Ranking) :
    (t.arrange ranking).asString? = t.asString? := by
  cases t with
  | object members => rw [Tree.arrange]; rfl
  | array items => rw [Tree.arrange]; rfl
  | _ => rfl

theorem Tree.isSome_render_arrange (t : Tree) (ranking : Ranking) :
    (t.arrange ranking).render.isSome = t.render.isSome := by
  cases t with
  | object members => rw [Tree.arrange]; rfl
  | array items => rw [Tree.arrange]; rfl
  | _ => rfl

theorem Kind.isSome_read?_arrange (kind : Kind) (node : Tree) (ranking : Ranking) :
    (kind.read? (node.arrange ranking)).isSome = (kind.read? node).isSome := by
  cases kind with
  | text => simp only [Kind.read?, Option.isSome_map, Tree.isSome_render_arrange]
  | sequence => simp only [Kind.read?, Option.isSome_map, Tree.isSome_render_arrange]
  | count => simp only [Kind.read?, Tree.toCount_arrange]
  | probability => simp only [Kind.read?, Tree.toProbability_arrange]

/-- What a node is read as in one order, it is read as in another, but for the texts
of a crowded one. -/
theorem Kind.read?_arrange {ranking : Ranking}
    (read : kind.read? (node.arrange ranking) = some value) (ranking' : Ranking) :
    ∃ value', kind.read? (node.arrange ranking') = some value' ∧ Relisted value value' := by
  by_cases few : node.All Tree.FewMembers
  · rw [node.arrange_few few] at read ⊢
    exact ⟨value, read, .same value⟩
  · have hsome := Kind.isSome_read?_arrange kind node ranking'
    rw [← Kind.isSome_read?_arrange kind node ranking, read, Option.isSome_some] at hsome
    obtain ⟨value', read'⟩ := Option.isSome_iff_exists.mp hsome
    exact ⟨value', read', .listed few read read'⟩

theorem Kind.read?_arrange_eq_none_iff {ranking : Ranking} :
    kind.read? (node.arrange ranking) = none ↔ kind.read? node = none := by
  rw [← Option.not_isSome_iff_eq_none, ← Option.not_isSome_iff_eq_none, Kind.isSome_read?_arrange]

-- ---------------------------------------------------------------------------
-- Numbers
-- ---------------------------------------------------------------------------

/-- A count and a probability are what they are in every order. -/
theorem Kind.read?_arrange_number (number : kind = .count ∨ kind = .probability) (node : Tree)
    (ranking : Ranking) : kind.read? (node.arrange ranking) = kind.read? node := by
  rcases number with rfl | rfl
  · simp only [Kind.read?, Tree.toCount_arrange]
  · simp only [Kind.read?, Tree.toProbability_arrange]

theorem Relisted.eq_of_not_text (h : Relisted value value') (notText : ∀ s, value ≠ .text s) :
    value' = value := by
  cases h with
  | same => rfl
  | @listed kind node crowded ranking ranking' _ _ read read' =>
    cases kind with
    | text =>
      obtain ⟨s, -, rfl⟩ := Option.map_eq_some_iff.mp read
      exact absurd rfl (notText s)
    | sequence =>
      obtain ⟨s, -, rfl⟩ := Option.map_eq_some_iff.mp read
      exact absurd rfl (notText _)
    | count =>
      rw [Kind.read?_arrange_number (.inl rfl)] at read read'
      exact Option.some.inj (read'.symm.trans read)
    | probability =>
      rw [Kind.read?_arrange_number (.inr rfl)] at read read'
      exact Option.some.inj (read'.symm.trans read)

end Telemetry.Payload
