import Shortlist.Proofs.Clause.Rebound
import Shortlist.Proofs.Compilation.Session

/-!
# Bound values

The values of comparisons and ranges are bound, and nothing that is written into a statement
depends on them: criteria that differ in such values alone are compiled to the same statement, and
what is sent with it differs only in the places of the parameters of these filters.
-/

namespace Shortlist

/-- The second criteria are the first with other operands in filters that bind them. -/
structure Criteria.Rebound (operators : Operators) (c c' : Criteria) : Prop where
  filters : List.Forall₂ (Filter.Rebound operators c.skipNull) c.filters c'.filters
  rest : c' = { c with filters := c'.filters }

theorem Criteria.Rebound.kept {operators : Operators} {c c' : Criteria}
    (h : c.Rebound operators c') :
  List.Forall₂ (Filter.Rebound operators c.skipNull) c.kept c'.kept
  := by
  have hskip : c'.skipNull = c.skipNull := by rw [h.rest]
  rw [Criteria.kept, Criteria.kept, hskip]
  apply List.rel_filter _ h.filters
  intro f f' hf
  cases hnull : c.skipNull with
  | true => simp [hf.isNull hnull]
  | false => simp

theorem OrderTerm.Of.unique {rootAlias? : Option String} {ts : List OrderTerm}
    {terms terms' : List (String × Direction)} (h : Of rootAlias? ts terms)
    (h' : Of rootAlias? ts terms') :
  terms' = terms
  := by
  induction h generalizing terms' with
  | nil =>
    cases h'
    rfl
  | @cons t term _ _ h _ ih =>
    cases h' with
    | @cons _ term' _ _ h' hs' =>
      obtain ⟨column, direction⟩ := term
      obtain ⟨column', direction'⟩ := term'
      obtain rfl : column' = column := Except.ok.inj (h'.1.symm.trans h.1)
      obtain rfl : direction' = direction := h'.2.trans h.2.symm
      rw [ih hs']

namespace Filter.Rebound

variable {operators : Operators} {rootAlias? : Option String} {skipNull : Bool}
  {fs fs' : List Filter} {cs cs' : List Clause}

theorem map_predicate_eq (h : List.Forall₂ (Rebound operators skipNull) fs fs')
    (hcs : Clause.Of operators rootAlias? fs cs) (hcs' : Clause.Of operators rootAlias? fs' cs') :
  cs'.map (·.predicate) = cs.map (·.predicate)
  := by
  induction h generalizing cs cs' with
  | nil =>
    cases hcs
    cases hcs'
    rfl
  | cons h _ ih =>
    cases hcs with
    | cons hc hcs =>
      cases hcs' with
      | cons hc' hcs' => rw [List.map_cons, List.map_cons, h.predicate_eq hc hc', ih hcs hcs']

theorem flatMap_parameters_eq (h : List.Forall₂ (Rebound operators skipNull) fs fs') :
  fs'.flatMap (·.parameters operators) = fs.flatMap (·.parameters operators)
  := by
  induction h with
  | nil => rfl
  | cons h _ ih => rw [List.flatMap_cons, List.flatMap_cons, h.parameters_eq, ih]

/-- A parameter that is bound to different values is needed by filters with different operands. -/
theorem exists_of_get?_bindings_ne (h : List.Forall₂ (Rebound operators skipNull) fs fs')
    (hcs : Clause.Of operators rootAlias? fs cs) (hcs' : Clause.Of operators rootAlias? fs' cs')
    {name : String}
    (hne : Keyed.get? name (cs'.flatMap (·.bindings))
      ≠ Keyed.get? name (cs.flatMap (·.bindings))) :
  ∃ f f', (f, f') ∈ fs.zip fs' ∧ f'.operand ≠ f.operand ∧ name ∈ f.parameters operators
  := by
  induction h generalizing cs cs' with
  | nil =>
    cases hcs
    cases hcs'
    cases hne rfl
  | @cons f f' fs fs' h _ ih =>
    cases hcs with
    | cons hc hcs =>
      cases hcs' with
      | cons hc' hcs' =>
        by_cases hf : f'.operand = f.operand ∨ name ∉ f.parameters operators
        · rw [List.flatMap_cons, List.flatMap_cons, Keyed.get?_append, Keyed.get?_append,
            h.get?_bindings_eq hc hc' hf] at hne
          obtain ⟨g, g', hmem, hg⟩ := ih hcs hcs' fun heq => hne (by rw [heq])
          exact ⟨g, g', List.mem_cons_of_mem _ hmem, hg⟩
        · simp only [not_or, not_not] at hf
          exact ⟨f, f', List.mem_cons_self .., hf⟩

end Filter.Rebound

namespace Query

/-- A query completed by clauses with the same predicates differs in its parameters alone. -/
theorem completed_withParameters (q : Query) {criteria criteria' : Criteria}
    (rest : criteria' = { criteria with filters := criteria'.filters }) {cs cs' : List Clause}
    (hpredicates : cs'.map (·.predicate) = cs.map (·.predicate))
    (terms : List (String × Direction)) :
  q.completed criteria' cs' terms
    = (q.completed criteria cs terms).withParameters (q.parameters ++ cs'.flatMap (·.bindings))
  := by
  rw [rest]
  simp only [completed, withClauses, withParameters, hpredicates]
  rfl

end Query

namespace Compilation

variable {q q₁ q₂ : Query} {criteria criteria' : Criteria} {operators : Operators}

/-- A closed query is closed after a build. -/
theorem isClosed_of_build_eq_ok (closed : q.IsClosed)
    (h : ((start q criteria).setOperators operators).build = .ok q₁) :
  q₁.IsClosed
  := by
  obtain ⟨c, hrun, rfl⟩ := (build_eq_ok_iff_run ..).mp h
  have hextends := (Extends.refl (c := (start q criteria).setOperators operators) rfl).run
  rw [hrun] at hextends
  apply hextends.extendedBy.isClosed closed

/-- Two builds that differ in bound values add clauses that differ in bindings alone. -/
theorem exists_clauses_of_rebound (h : criteria.Rebound operators criteria')
    (h₁ : ((start q criteria).setOperators operators).build = .ok q₁)
    (h₂ : ((start q criteria').setOperators operators).build = .ok q₂) :
  ∃ cs cs', Clause.Of operators q.rootAlias? criteria.kept cs
    ∧ Clause.Of operators q.rootAlias? criteria'.kept cs'
    ∧ q₁.parameters = q.parameters ++ cs.flatMap (·.bindings)
    ∧ q₂ = q₁.withParameters (q.parameters ++ cs'.flatMap (·.bindings))
  := by
  obtain ⟨cs, terms, hcs, -, -, hterms, rfl⟩ := (build_eq_ok_iff rfl q₁).mp h₁
  obtain ⟨cs', terms', hcs', -, -, hterms', rfl⟩ := (build_eq_ok_iff rfl q₂).mp h₂
  change Clause.Of operators q.rootAlias? criteria.kept cs at hcs
  change Clause.Of operators q.rootAlias? criteria'.kept cs' at hcs'
  have horder : criteria'.order = criteria.order := by rw [h.rest]
  change OrderTerm.Of _ criteria'.order terms' at hterms'
  rw [horder] at hterms'
  obtain rfl : terms' = terms := hterms.unique hterms'
  use cs, cs', hcs, hcs', rfl
  apply q.completed_withParameters h.rest
  apply Filter.Rebound.map_predicate_eq h.kept hcs hcs'

/-- Values that are bound do not reach the text of a statement.  Two criteria that differ only in
the operands of comparisons and ranges are compiled to queries that differ in the values of their
parameters alone.  The statements are the same, character for character, and number the same
names, and the values sent with them differ only at the numbers of parameters that filters with
different operands need. -/
theorem render_of_rebound (closed : ∀ name ∈ q.named, q.isBound name = true)
    (h : criteria.Rebound operators criteria')
    (h₁ : ((start q criteria).setOperators operators).build = .ok q₁)
    (h₂ : ((start q criteria').setOperators operators).build = .ok q₂) :
  q₂ = q₁.withParameters q₂.parameters
    ∧ Keyed.keys q₂.parameters = Keyed.keys q₁.parameters
    ∧ ∃ r₁ r₂ number, q₁.render = .ok r₁ ∧ q₂.render = .ok r₂ ∧ r₂.sql = r₁.sql
      ∧ r₁.sql = String.join (q₁.pieces.map (Piece.written q₁.dialect number))
      ∧ Numbers q₁.named q₁.parameter? r₁.parameters number
      ∧ Numbers q₁.named q₂.parameter? r₂.parameters number
      ∧ r₂.parameters.length = r₁.parameters.length
      ∧ ∀ k, r₂.parameters[k]? ≠ r₁.parameters[k]? →
          ∃ name ∈ q₁.named, number name = k + 1
            ∧ ∃ f f', (f, f') ∈ criteria.kept.zip criteria'.kept ∧ f'.operand ≠ f.operand
              ∧ name ∈ f.parameters operators
  := by
  have hclosed₁ : q₁.IsClosed := isClosed_of_build_eq_ok closed h₁
  have hclosed₂ : q₂.IsClosed := isClosed_of_build_eq_ok closed h₂
  have hnumbers₁ : Numbers q₁.named q₁.parameter? q₁.numbered.parameters (numberAmong q₁.named) :=
    numbers_numberAmong hclosed₁
  have hnumbers₂ : Numbers q₂.named q₂.parameter? q₂.numbered.parameters (numberAmong q₂.named) :=
    numbers_numberAmong hclosed₂
  have hrender₂ := q₂.render_of_bound hclosed₂
  obtain ⟨cs, cs', hcs, hcs', hparameters, rfl⟩ := exists_clauses_of_rebound h h₁ h₂
  constructor
  · rfl
  · constructor
    · change Keyed.keys (q.parameters ++ _) = _
      rw [hparameters, Keyed.keys, Keyed.keys, List.map_append, List.map_append]
      congr 1
      change Keyed.keys (cs'.flatMap _) = Keyed.keys (cs.flatMap _)
      rw [Clause.keys_bindings, Clause.keys_bindings, hcs.names_eq, hcs'.names_eq]
      apply Filter.Rebound.flatMap_parameters_eq h.kept
    · refine ⟨_, _, _, q₁.render_of_bound hclosed₁, hrender₂, rfl, q₁.sql_numbered_eq_join,
        hnumbers₁, hnumbers₂, hnumbers₂.length_eq.trans hnumbers₁.length_eq.symm, ?_⟩
      intro k hk
      obtain ⟨name, hname, hnumber, hne⟩ := hnumbers₁.exists_of_getElem?_ne hnumbers₂ hk
      use name, hname, hnumber
      apply Filter.Rebound.exists_of_get?_bindings_ne h.kept hcs hcs'
      intro heq
      apply hne
      change Keyed.get? name (q.parameters ++ _) = Keyed.get? name q₁.parameters
      rw [hparameters, Keyed.get?_append, Keyed.get?_append, heq]

/-- Two searches for posts, for other words and in another range.  The states are written out. -/
theorem render_of_rebound_posts :
  ∃ (q q₁ q₂ : Query) (criteria criteria' : Criteria) (operators : Operators),
    (∀ name ∈ q.named, q.isBound name = true)
      ∧ criteria.Rebound operators criteria'
      ∧ ((start q criteria).setOperators operators).build = .ok q₁
      ∧ ((start q criteria').setOperators operators).build = .ok q₂
      ∧ q₁.parameters.map (fun (name, v) => (name, v == .string "a"))
          = [("title", true), ("id_from", false), ("id_to", false)]
      ∧ q₂.parameters.map (fun (name, v) => (name, v == .string "'; --"))
          = [("title", true), ("id_from", false), ("id_to", false)]
      ∧ ∃ r₁ r₂, q₁.render = .ok r₁ ∧ q₂.render = .ok r₂ ∧ r₂.sql = r₁.sql
  := by
  let q : Query := ⟨.postgres, "posts", some "post", [], [], [], [], [], none, none, none⟩
  let operators : Operators := .ofList [("state", "in"), ("id", "between")]
  let title (s : String) : Filter := ⟨⟨"title", by decide⟩, .string s⟩
  let state : Filter := ⟨⟨"state", by decide⟩, .list [.string "new"]⟩
  let id (high : Int64) : Filter := ⟨⟨"id", by decide⟩, .list [.int 1, .int high]⟩
  let criteria (s : String) (high : Int64) : Criteria :=
    { Criteria.standard with filters := [title s, state, id high] }
  have closed : ∀ name ∈ q.named, q.isBound name = true := by
    intro name hname
    cases hname
  have htitle : (title "a").Rebound operators true (title "'; --") :=
    ⟨rfl, .inr ⟨.eq, rfl, .inl rfl⟩, fun _ => rfl⟩
  have hstate : state.Rebound operators true state := ⟨rfl, .inl rfl, fun _ => rfl⟩
  have hid : (id 5).Rebound operators true (id 9) :=
    ⟨rfl, .inr ⟨.between, rfl, .inr rfl⟩, fun _ => rfl⟩
  have h : (criteria "a" 5).Rebound operators (criteria "'; --" 9) :=
    ⟨.cons htitle (.cons hstate (.cons hid .nil)), rfl⟩
  obtain ⟨q₁, h₁, hq₁⟩ : ∃ q₁, ((start q (criteria "a" 5)).setOperators operators).build = .ok q₁
      ∧ q₁.parameters.map (fun (name, v) => (name, v == .string "a"))
        = [("title", true), ("id_from", false), ("id_to", false)] :=
    exists_eq_ok_of_map_toOption (by decide +kernel)
  obtain ⟨q₂, h₂, hq₂⟩ : ∃ q₂, ((start q (criteria "'; --" 9)).setOperators operators).build
      = .ok q₂ ∧ q₂.parameters.map (fun (name, v) => (name, v == .string "'; --"))
        = [("title", true), ("id_from", false), ("id_to", false)] :=
    exists_eq_ok_of_map_toOption (by decide +kernel)
  obtain ⟨-, -, r₁, r₂, -, hr₁, hr₂, hsql, -⟩ := render_of_rebound closed h h₁ h₂
  exact ⟨q, q₁, q₂, _, _, operators, closed, h, h₁, h₂, hq₁, hq₂, r₁, r₂, hr₁, hr₂, hsql⟩

end Compilation

end Shortlist
