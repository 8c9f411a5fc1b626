import Shortlist.Proofs.Compilation.Refusal
import Shortlist.Proofs.Criteria.Sound

/-!
# Builds of sound criteria

When sound criteria are put onto a query that has an alias, their tags and fields cannot be at
fault any more.  What is left to go wrong is an operand that its operator cannot take, and a
parameter that is taken.
-/

namespace Shortlist

/-- Sound criteria give no field an unknown tag. -/
theorem Criteria.IsSound.not_hasUnknownTag {c : Criteria} (h : c.IsSound) (f : Filter)
    (tag : String) :
  ¬ f.HasUnknownTag c.operators tag
  := by
  rintro ⟨hget, unknown⟩
  have hmem : (f.field.text, tag) ∈ c.operators.entries := Keyed.mem_of_get? hget
  obtain ⟨op, rfl⟩ := h.tags _ hmem
  apply unknown
  apply List.mem_cons_of_mem
  apply List.mem_map_of_mem op.mem_all

/-- A build of sound criteria onto a query with an alias stops at a filter, for its operand or for
a parameter. -/
theorem Compilation.build_eq_error_of_isSound {c : Criteria} (sound : c.IsSound) {q : Query}
    (aliased : ¬ LacksAlias q.rootAlias?) {e : Error} (h : (start q c).build = .error e) :
  ∃ f ∈ c.kept, (∃ fault, e = .operand f.field.text fault) ∨ ∃ fault, e = .field f.field.text fault
  := by
  rcases (build_eq_error_iff_first rfl rfl e).mp h with
    ⟨earlier, f, later, hsplit, -, refused⟩ | ⟨-, -, lacks, -⟩
  · use f
    constructor
    · rw [show c.kept = earlier ++ f :: later from hsplit]
      apply List.mem_append_right _ List.mem_cons_self
    · cases refused with
      | unknownOperator unknown => cases sound.not_hasUnknownTag f _ unknown
      | missingAlias _ stranded => cases aliased stranded.2
      | operand _ _ misfit => exact .inl ⟨_, rfl⟩
      | field _ _ _ clashes => exact .inr ⟨_, rfl⟩
  · cases aliased lacks

/-- Criteria are sound wherever they come from: the page is counted from one, no field is filtered
twice, every name is that of a field and every tag that of an operator.  So when they are put onto
a query with an alias, nothing can go wrong but that an operator cannot take the operand of a
filter or that a parameter of a filter is taken. -/
theorem isSound_of_produced {c : Criteria} (h : c.Produced) :
  c.IsSound
    ∧ ∀ q : Query, ¬ LacksAlias q.rootAlias? → ∀ e, (Compilation.start q c).build = .error e →
      ∃ f ∈ c.kept, (∃ fault, e = .operand f.field.text fault)
        ∨ ∃ fault, e = .field f.field.text fault
  := by
  use h.isSound
  intro q aliased e he
  apply Compilation.build_eq_error_of_isSound h.isSound aliased he

/-- A document with a range of three prices, put onto a query of posts. -/
theorem isSound_of_produced_posts :
  ∃ (s : String) (c : Criteria) (q : Query) (e : Error), Criteria.ofTomlText s = .ok c
    ∧ c.fieldNames = ["author.name", "price", "rank", "author", "price"] ∧ c.IsSound
    ∧ ¬ LacksAlias q.rootAlias? ∧ (Compilation.start q c).build = .error e
    ∧ e = .operand "price" .notTwoBounds
    ∧ ∃ f ∈ c.kept, (∃ fault, e = .operand f.field.text fault)
        ∨ ∃ fault, e = .field f.field.text fault
  := by
  let s := "filters.price = [1, 2, 3]\nfilters.'author.name' = 'Ann'\n"
    ++ "operators = \x7b price = 'between', author = 'notin' \x7d\norder = [\x7b by = 'rank' \x7d]"
  let q : Query := ⟨.postgres, "posts", some "post", [], [], [], [], [], none, none, none⟩
  have aliased : ¬ LacksAlias q.rootAlias? := by
    simp [LacksAlias, q]
  let refusal? (c : Criteria) : Option Error :=
    match (Compilation.start q c).build with
    | .ok _ => none
    | .error e => some e
  obtain ⟨c, hc, h⟩ : ∃ c, Criteria.ofTomlText s = .ok c ∧ (c.fieldNames, refusal? c)
      = (["author.name", "price", "rank", "author", "price"],
        some (.operand "price" .notTwoBounds)) :=
    exists_eq_ok_of_map_toOption (by decide +kernel)
  obtain ⟨hnames, hrefusal⟩ := Prod.mk.inj h
  have he : (Compilation.start q c).build = .error (.operand "price" .notTwoBounds) := by
    simp only [refusal?] at hrefusal
    split at hrefusal
    case h_1 => cases hrefusal
    case h_2 e he =>
      rw [he, Option.some.inj hrefusal]
  obtain ⟨sound, faults⟩ := isSound_of_produced (.toml hc)
  exact ⟨s, c, q, _, hc, hnames, sound, aliased, he, rfl, faults q aliased _ he⟩

end Shortlist
