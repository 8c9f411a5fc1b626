import Shortlist.Proofs.Query.Legible

/-!
# Queries read off their statements

The statement of a query without joins is a head and five parts that may be left out.  Each part
shows where it ends, so a query can be read off its statement, but for the names of parameters
and the columns of lists without values.
-/

namespace Shortlist

open Text

namespace Query

/-- Everything that a query writes into its statement can be read off it: the names are names,
the columns of the root alias alone are selected, there is no join, and the predicates can be
read off. -/
structure IsLegible (q : Query) : Prop where
  dialect : q.dialect = .postgres
  table : IsName q.table
  rootAlias : ∀ name, q.rootAlias? = some name → isIdentifier name = true
  selects : q.selects = (q.rootAlias?.map (· ++ ".*")).toList
  joins : q.joins = []
  predicates : ∀ p ∈ q.predicates, p.Legible .postgres
  order : ∀ term ∈ q.order, IsName term.1
  grouping : ∀ column, q.grouping? = some column → IsName column

namespace IsLegible

variable {q q' : Query}

/-! ### The head -/

/-- The head of a query without a root alias selects everything. -/
theorem toList_headText_of_none (h : q.IsLegible) (halias : q.rootAlias? = none) :
  q.headText.toList = "SELECT ".toList ++ ("* FROM ".toList ++ q.table.toList)
  := by simp [headText, h.selects, h.joins, halias]

/-- The head of a query with a root alias selects everything under the alias. -/
theorem toList_headText_of_some (h : q.IsLegible) {name : String}
    (halias : q.rootAlias? = some name) :
  q.headText.toList = "SELECT ".toList ++ (name.toList ++ (".* FROM ".toList
    ++ (q.table.toList ++ (" ".toList ++ name.toList))))
  := by simp [headText, h.selects, h.joins, halias]

/-- With a root alias the select list begins with a name, without one it is a star. -/
theorem headText_ne (h : q.IsLegible) (h' : q'.IsLegible) (halias : q.rootAlias? = none)
    {name : String} (halias' : q'.rootAlias? = some name) (r s : List Char) :
  q.headText.toList ++ r ≠ q'.headText.toList ++ s
  := by
  have hname := isName_of_isIdentifier (h'.rootAlias name halias')
  rw [h.toList_headText_of_none halias, h'.toList_headText_of_some halias', List.append_assoc,
    List.append_assoc, List.append_assoc, List.append_assoc]
  intro heq
  apply hname.append_ne_cons (c := '*') (by decide) _ _ (List.append_cancel_left heq).symm

/-- The table and the root alias are read off the head. -/
theorem forces_headText (h : q.IsLegible) (h' : q'.IsLegible) :
  Forces Spaced q.headText.toList q'.headText.toList
    (q.table = q'.table ∧ q.rootAlias? = q'.rootAlias?)
  := by
  have htable := h.table.forces h'.table
  cases halias : q.rootAlias? with
  | none =>
    cases halias' : q'.rootAlias? with
    | none =>
      rw [h.toList_headText_of_none halias, h'.toList_headText_of_none halias']
      have htable := htable.mono fun r (hr : Spaced r) => hr.stops (by decide)
      apply ((htable.behind _).behind _).imp
      exact fun heq => ⟨heq, rfl⟩
    | some name =>
      intro r s _ _ heq
      cases h.headText_ne h' halias halias' r s heq
  | some name =>
    cases halias' : q'.rootAlias? with
    | none =>
      intro r s _ _ heq
      cases h'.headText_ne h halias' halias s r heq.symm
    | some name' =>
      have hname := h.rootAlias name halias
      have hname' := h'.rootAlias name' halias'
      have hselect : Forces (Stops isWordChar) name.toList name'.toList (name = name') :=
        (Forces.run (isWordChar_of_isIdentifierText hname)
          (isWordChar_of_isIdentifierText hname')).imp String.toList_inj.mp
      have hroot : Forces Spaced name.toList name'.toList (name = name') :=
        ((isName_of_isIdentifier hname).forces (isName_of_isIdentifier hname')).mono
          fun r hr => hr.stops (by decide)
      have hfrom := htable.append (hroot.behind " ".toList) (fun _ _ => by rfl)
        (fun _ _ => by rfl)
      have hhead := hselect.append (hfrom.behind ".* FROM ".toList) (fun _ _ => by rfl)
        (fun _ _ => by rfl)
      rw [h.toList_headText_of_some halias, h'.toList_headText_of_some halias']
      apply (hhead.behind "SELECT ".toList).imp
      rintro ⟨rfl, hfrom, -⟩
      exact ⟨hfrom, rfl⟩

/-! ### The parts -/

/-- The predicates are read off the conditions, up to the names of their parameters. -/
theorem forces_conditions (h : q.IsLegible) (h' : q'.IsLegible) (number number' : String → Nat) :
  Forces (Begins [" GROUP BY ", " ORDER BY ", " LIMIT ", " OFFSET "])
    (listed " WHERE " " AND " (q.conditions number))
    (listed " WHERE " " AND " (q'.conditions number'))
    (List.Forall₂ (Predicate.Agree number number') q.predicates q'.predicates)
  := by
  rw [conditions, conditions, h.dialect, h'.dialect]
  apply Forces.listed (F := Spaced)
  · intro p hp p' hp'
    apply (h.predicates p hp).forces_pieces (h'.predicates p' hp')
  · intro r
    rfl
  · intro r hr
    apply hr.stops
    decide
  · intro r hr
    apply hr.not_begin <;> decide
  · intro r hr
    apply hr.not_begin <;> decide

/-- The grouping is read off its text. -/
theorem forces_groupText (h : q.IsLegible) (h' : q'.IsLegible) :
  Forces (Begins [" ORDER BY ", " LIMIT ", " OFFSET "]) q.groupText.toList q'.groupText.toList
    (q.grouping? = q'.grouping?)
  := by
  rw [toList_groupText, toList_groupText]
  apply Forces.optional
  · intro column hcolumn column' hcolumn'
    apply ((h.grouping column hcolumn).forces (h'.grouping column' hcolumn')).mono
    intro r hr
    apply hr.stops
    decide
  · intro r hr
    apply hr.not_begin <;> decide

theorem forces_sql_direction (d d' : Direction) (May : List Char → Prop) :
  Forces May d.sql.toList d'.sql.toList (d = d')
  := by
  apply Forces.told fun d : Direction => d.sql.toList
  cases d <;> cases d' <;> decide

/-- The order terms are read off their text. -/
theorem forces_orderText (h : q.IsLegible) (h' : q'.IsLegible) :
  Forces (Begins [" LIMIT ", " OFFSET "]) q.orderText.toList q'.orderText.toList
    (q.order = q'.order)
  := by
  rw [toList_orderText, toList_orderText, ← List.forall₂_eq_eq_eq]
  apply Forces.listed (F := fun _ => True)
  · rintro ⟨column, d⟩ hterm ⟨column', d'⟩ hterm'
    have hcolumn := (h.order _ hterm).forces (h'.order _ hterm')
    have hd := forces_sql_direction d d' fun _ => True
    rw [String.toList_append, String.toList_append, String.toList_append, String.toList_append,
      List.append_assoc, List.append_assoc]
    apply (hcolumn.append (hd.behind " ".toList) (fun _ _ => by rfl) (fun _ _ => by rfl)).imp
    rintro ⟨rfl, rfl⟩
    rfl
  · intro r
    trivial
  · intro r _
    trivial
  · intro r hr
    apply hr.not_begin <;> decide
  · intro r hr
    apply hr.not_begin <;> decide

/-- A number of 64 bits is read off its digits. -/
theorem forces_natText_toNat (n m : UInt64) :
  Forces (Stops Char.isDigit) (Number.natText n.toNat).toList (Number.natText m.toNat).toList
    (n = m)
  := (Number.forces_natText n.toNat m.toNat).imp UInt64.toNat_inj.mp

/-- The limit is read off its text. -/
theorem forces_limitText (h : q.IsLegible) (h' : q'.IsLegible) :
  Forces (Begins [" OFFSET "]) q.limitText.toList q'.limitText.toList (q.limit? = q'.limit?)
  := by
  rw [toList_limitText q h.dialect, toList_limitText q' h'.dialect]
  apply Forces.optional
  · intro n _ m _
    apply (forces_natText_toNat n m).mono
    intro r hr
    apply hr.stops
    decide
  · intro r hr
    apply hr.not_begin <;> decide

/-- The offset is read off its text, and nothing comes after it. -/
theorem forces_offsetText (q q' : Query) :
  Forces (Begins []) q.offsetText.toList q'.offsetText.toList (q.offset? = q'.offset?)
  := by
  rw [toList_offsetText, toList_offsetText]
  apply Forces.optional
  · intro n _ m _
    apply (forces_natText_toNat n m).mono
    intro r hr
    apply hr.stops
    decide
  · intro r hr
    apply hr.not_begin <;> decide

end IsLegible

/-! ### Queries -/

/-- Two queries are the same, but for the columns of lists without values, and but for the names
of parameters: names in the same place stand for the same. -/
structure Agree {γ : Type} (f f' : String → γ) (q q' : Query) : Prop where
  table : q.table = q'.table
  rootAlias : q.rootAlias? = q'.rootAlias?
  predicates : List.Forall₂ (Predicate.Agree f f') q.predicates q'.predicates
  grouping : q.grouping? = q'.grouping?
  order : q.order = q'.order
  limit : q.limit? = q'.limit?
  offset : q.offset? = q'.offset?

/-- A legible query can be read off the text of its statement, with numbers for names. -/
theorem IsLegible.agree_of_sql_eq {q q' : Query} (h : q.IsLegible) (h' : q'.IsLegible)
    (heq : q.numbered.sql = q'.numbered.sql) :
  q.Agree (numberAmong q.named) (numberAmong q'.named) q'
  := by
  have htext := congrArg String.toList heq
  rw [toList_sql_numbered_eq_append, toList_sql_numbered_eq_append] at htext
  have spaced {keywords : List String} {r : List Char} (hr : Begins keywords r)
      (hkeywords : ∀ k ∈ keywords, k.toList ≠ [] ∧ Stops (· != ' ') k.toList) : Spaced r :=
    hr.stops hkeywords
  obtain ⟨⟨htable, halias⟩, htext⟩ := h.forces_headText h' _ _
    (spaced (q.begins_conditions h.dialect _) (by decide))
    (spaced (q'.begins_conditions h'.dialect _) (by decide)) htext
  obtain ⟨hpredicates, htext⟩ := h.forces_conditions h' _ _ _ _ (q.begins_group h.dialect)
    (q'.begins_group h'.dialect) htext
  obtain ⟨hgrouping, htext⟩ := h.forces_groupText h' _ _ (q.begins_order h.dialect)
    (q'.begins_order h'.dialect) htext
  obtain ⟨horder, htext⟩ := h.forces_orderText h' _ _ (q.begins_limit h.dialect)
    (q'.begins_limit h'.dialect) htext
  obtain ⟨hlimit, htext⟩ := h.forces_limitText h' _ _ q.begins_offset q'.begins_offset htext
  obtain ⟨hoffset, -⟩ := IsLegible.forces_offsetText q q' [] [] (begins_nil []) (begins_nil [])
    (by rw [htext])
  exact ⟨htable, halias, hpredicates, hgrouping, horder, hlimit, hoffset⟩

/-- The values of the names of a query, read off the numbers of the names. -/
theorem map_parameter?_named {q : Query} (bound : ∀ name ∈ q.named, (q.parameter? name).isSome) :
  q.named.map q.parameter?
    = (q.named.map (numberAmong q.named)).map fun k => q.numbered.parameters[k - 1]?
  := by
  have hnumbers := numbers_numberAmong bound
  rw [List.map_map]
  apply List.map_congr_left
  intro name hname
  apply (hnumbers.getElem?_number name hname).symm

/-- A legible query can be read off its statement and the values sent with it. -/
theorem IsLegible.agree_of_numbered_eq {q q' : Query} (h : q.IsLegible) (h' : q'.IsLegible)
    (bound : ∀ name ∈ q.named, (q.parameter? name).isSome)
    (bound' : ∀ name ∈ q'.named, (q'.parameter? name).isSome) (heq : q.numbered = q'.numbered) :
  q.Agree q.parameter? q'.parameter? q'
  := by
  obtain ⟨htable, halias, hpredicates, hgrouping, horder, hlimit, hoffset⟩ :=
    h.agree_of_sql_eq h' (congrArg Rendered.sql heq)
  have hnumbers : q.named.map (numberAmong q.named) = q'.named.map (numberAmong q'.named) :=
    Predicate.Agree.map_flatMap_parameters_eq hpredicates
  -- names in one place have one number in both, so one value is sent for them
  have hvalues : q.named.map q.parameter? = q'.named.map q'.parameter? := by
    rw [map_parameter?_named bound, map_parameter?_named bound', hnumbers, heq]
  have hpredicates' := Predicate.Agree.of_map_flatMap_parameters_eq hpredicates hvalues
  exact ⟨htable, halias, hpredicates', hgrouping, horder, hlimit, hoffset⟩

end Query

end Shortlist
