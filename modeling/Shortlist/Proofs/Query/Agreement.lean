import Shortlist.Proofs.Query.Layout

/-!
# Agreement up to the names of parameters

In a statement a parameter is a number, and what is sent with the statement is its value.  So
two queries whose predicates differ only in the names of parameters have the same statement, as
long as no query names one parameter twice: then the numbers count the places.
-/

namespace Shortlist

/-- The predicates are the same, but for the column of a list without values, and but for the
names of parameters: a name in the second predicate stands for the same as the name in its
place in the first one. -/
inductive Predicate.Agree {γ : Type} (f f' : String → γ) : Predicate → Predicate → Prop
  | compare (column : String) (op : Operator) {name name' : String} (h : f name = f' name') :
      Agree f f' (.compare column op name) (.compare column op name')
  | null (column : String) (negated : Bool) :
      Agree f f' (.null column negated) (.null column negated)
  | like (column : String) (negated : Bool) (pattern : String) :
      Agree f f' (.like column negated pattern) (.like column negated pattern)
  | isIn (column : String) (negated : Bool) (values : List Value) :
      Agree f f' (.isIn column negated values) (.isIn column negated values)
  | empty (column column' : String) (negated : Bool) :
      Agree f f' (.isIn column negated []) (.isIn column' negated [])
  | between (column : String) {low high low' high' : String} (hlow : f low = f' low')
      (hhigh : f high = f' high') :
      Agree f f' (.between column low high) (.between column low' high')

namespace Predicate.Agree

variable {γ δ : Type} {f f' : String → γ} {g g' : String → δ} {p p' : Predicate}
  {ps ps' : List Predicate}

theorem map_parameters_eq (h : p.Agree f f' p') :
  p.parameters.map f = p'.parameters.map f'
  := by
  cases h with
  | compare _ _ h => simp [parameters, h]
  | between _ hlow hhigh => simp [parameters, hlow, hhigh]
  | _ => rfl

/-- Predicates of the same shape agree in whatever their parameters agree in. -/
theorem of_map_parameters_eq (h : p.Agree g g' p')
    (hmap : p.parameters.map f = p'.parameters.map f') :
  p.Agree f f' p'
  := by
  cases h with
  | compare column op => exact .compare column op (by simpa [parameters] using hmap)
  | null column negated => exact .null column negated
  | like column negated pattern => exact .like column negated pattern
  | isIn column negated values => exact .isIn column negated values
  | empty column column' negated => exact .empty column column' negated
  | between column =>
    obtain ⟨hlow, hhigh⟩ : f _ = f' _ ∧ f _ = f' _ := by simpa [parameters] using hmap
    exact .between column hlow hhigh

theorem map_flatMap_parameters_eq (h : List.Forall₂ (Agree f f') ps ps') :
  (ps.flatMap parameters).map f = (ps'.flatMap parameters).map f'
  := by
  induction h with
  | nil => rfl
  | cons h _ ih =>
    rw [List.flatMap_cons, List.flatMap_cons, List.map_append, List.map_append, ih,
      h.map_parameters_eq]

/-- Two names are as many as two names: the parameters of predicates of one shape can be told
apart. -/
theorem length_parameters_eq (h : p.Agree f f' p') :
  p.parameters.length = p'.parameters.length
  := by cases h <;> rfl

theorem of_map_flatMap_parameters_eq (h : List.Forall₂ (Agree g g') ps ps')
    (hmap : (ps.flatMap parameters).map f = (ps'.flatMap parameters).map f') :
  List.Forall₂ (Agree f f') ps ps'
  := by
  induction h with
  | nil => apply List.Forall₂.nil
  | cons h _ ih =>
    rw [List.flatMap_cons, List.flatMap_cons, List.map_append, List.map_append] at hmap
    obtain ⟨hp, hps⟩ := List.append_inj hmap (by simp [h.length_parameters_eq])
    apply List.Forall₂.cons
    · apply h.of_map_parameters_eq hp
    · apply ih hps

/-- Predicates that agree in their numbers are spelled alike. -/
theorem spelled_eq {number number' : String → Nat} (h : p.Agree number number' p') (d : Dialect) :
  spelled d number p.pieces = spelled d number' p'.pieces
  := by
  cases h with
  | compare column op h => simp [spelled, pieces, Piece.map, h]
  | between column hlow hhigh => simp [spelled, pieces, Piece.map, hlow, hhigh]
  | isIn column negated values =>
    cases values with
    | nil => rfl
    | cons v vs =>
      rw [pieces, spelled_text, spelled_text, spelled_append, spelled_append, spelled_separated,
        spelled_separated, List.map_map, List.map_map]
      · rfl
      · intro h
        cases h
  | _ => rfl

end Predicate.Agree

/-! ### Numbers -/

/-- Where every name is named once, the numbers count the names. -/
theorem map_numberAmong {names : List String} (distinct : names.Nodup) :
  names.map (numberAmong names) = List.range' 1 names.length
  := by
  have h := map_numberAmong_eraseDups names
  rwa [eraseDups_of_nodup distinct] at h

namespace Query

open Text

variable {q q' : Query}

/-- Queries that name no parameter twice and agree in the values of parameters agree in the
numbers. -/
theorem agree_numberAmong
    (agree : List.Forall₂ (Predicate.Agree q.parameter? q'.parameter?) q.predicates q'.predicates)
    (distinct : q.named.Nodup) (distinct' : q'.named.Nodup) :
  List.Forall₂ (Predicate.Agree (numberAmong q.named) (numberAmong q'.named)) q.predicates
    q'.predicates
  := by
  have hlength := congrArg List.length (Predicate.Agree.map_flatMap_parameters_eq agree)
  rw [List.length_map, List.length_map] at hlength
  apply Predicate.Agree.of_map_flatMap_parameters_eq agree
  change q.named.map _ = q'.named.map _
  rw [map_numberAmong distinct, map_numberAmong distinct']
  apply congrArg (List.range' 1) hlength

/-- Conditions that agree in their numbers are spelled alike. -/
theorem conditions_eq_of_agree {number number' : String → Nat} (hd : q'.dialect = q.dialect)
    (agree : List.Forall₂ (Predicate.Agree number number') q.predicates q'.predicates) :
  q.conditions number = q'.conditions number'
  := by
  rw [conditions, conditions, hd, ← List.forall₂_eq_eq_eq, List.forall₂_map_left_iff,
    List.forall₂_map_right_iff]
  apply agree.imp
  intro p p' h
  apply h.spelled_eq

/-- Queries that differ only in the names of parameters, and name none of them twice, have the
same statement with the same values. -/
theorem numbered_eq_of_agree
    (rest : q' = { q with predicates := q'.predicates, parameters := q'.parameters })
    (agree : List.Forall₂ (Predicate.Agree q.parameter? q'.parameter?) q.predicates q'.predicates)
    (distinct : q.named.Nodup) (distinct' : q'.named.Nodup) :
  q.numbered = q'.numbered
  := by
  have hsql : q.numbered.sql = q'.numbered.sql := by
    apply String.toList_inj.mp
    have hd : q'.dialect = q.dialect := by rw [rest]
    rw [toList_sql_numbered_eq_append, toList_sql_numbered_eq_append,
      conditions_eq_of_agree hd (agree_numberAmong agree distinct distinct')]
    -- the predicates are in the conditions only, and all else is the same in both queries
    generalize listed _ _ (q'.conditions _) = conditions
    rw [rest]
    rfl
  have hparameters : q.numbered.parameters = q'.numbered.parameters := by
    have hvalues := Predicate.Agree.map_flatMap_parameters_eq agree
    change q.named.map _ = q'.named.map _ at hvalues
    rw [numbered, numbered, eraseDups_of_nodup distinct, eraseDups_of_nodup distinct']
    change q.named.filterMap (id ∘ q.parameter?) = q'.named.filterMap (id ∘ q'.parameter?)
    rw [← List.filterMap_map, ← List.filterMap_map, hvalues]
  exact congrArg₂ Rendered.mk hsql hparameters

end Query

end Shortlist
