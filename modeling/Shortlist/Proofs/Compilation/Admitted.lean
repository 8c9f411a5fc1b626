import Shortlist.Proofs.Clause.Admitted
import Shortlist.Proofs.Compilation.Meaning
import Shortlist.Proofs.Compilation.Refusal
import Shortlist.Proofs.Criteria.Sound

/-!
# Bounds and members of completed builds

A build refuses bounds that are null and lists among bounds and members, but it does not look at
the ids of entities.  So what a completed build binds for bounds, and writes into lists, is
admitted exactly when the ids of the entities are.  Ids read from raw options always are; an id
that is not can only come from a draft.
-/

namespace Shortlist

/-! ### Ids that are read -/

/-- An id that is read is a number or a string. -/
theorem Json.IsOperand.admits_of_entity {j : Json} {id : Value} (h : j.IsOperand (.entity id))
    (kind : Operator.Kind) :
  kind.Admits id
  := by
  have hscalar : id ≠ .null ∧ id.isArray = false := by
    cases h with
    | entity h =>
      rw [Operand.idOf?.eq_def] at h
      split at h
      · rename_i n _
        cases h
        rw [Operand.numberValue]
        cases n.toInt64? <;> simp [Value.isArray]
      · cases h
        simp [Value.isArray]
      · cases h
  cases kind with
  | range => exact hscalar
  | membership => exact hscalar.2
  | _ => trivial

theorem Json.IsOperand.hasAdmittedIds {j : Json} {v : Operand} (h : j.IsOperand v)
    (kind : Operator.Kind) :
  v.HasAdmittedIds kind
  := by
  rintro id (_ | ⟨mem⟩)
  · apply h.admits_of_entity
  · cases h with
    | list h =>
      obtain ⟨_, hentity⟩ := (exists_forall₂_iff (flip IsOperand) _).mp ⟨_, h.flip⟩ _ mem
      apply Json.IsOperand.admits_of_entity hentity

theorem Criteria.hasAdmittedIds_of_ofOptions {options : Json} {c : Criteria}
    (h : ofOptions options = .ok c) {f : Filter} (hf : f ∈ c.filters) (kind : Operator.Kind) :
  f.operand.HasAdmittedIds kind
  := by
  obtain ⟨_, -, holds⟩ := (ofOptions_eq_ok_iff_holds options c).mp h
  obtain ⟨ms, hms⟩ : ∃ ms, List.Forall₂ IsFilter ms c.filters := by
    rcases holds.filters.eq_standard_or with hnone | ⟨_, -, ⟨ms, -, hms⟩ | ⟨-, hnone⟩⟩
    · rw [hnone]
      exact ⟨[], .nil⟩
    · exact ⟨ms, hms⟩
    · rw [hnone]
      exact ⟨[], .nil⟩
  obtain ⟨_, hfilter⟩ := (exists_forall₂_iff (flip IsFilter) _).mp ⟨_, hms.flip⟩ f hf
  apply Json.IsOperand.hasAdmittedIds (IsFilter.operand hfilter)

namespace Compilation

/-! ### Builds that fail -/

/-- A build without handlers fails when something is wrong with a filter. -/
theorem exists_build_eq_error_of_offends {c : Compilation} (handlers : c.handlers = .empty)
    (unclaimed : c.claims = []) {earlier later : List Filter} {f : Filter}
    (hkept : c.criteria.kept = earlier ++ f :: later)
    (offends : f.Offends c.operators c.query earlier) :
  ∃ e, c.build = .error e
  := by
  have hsome : ¬ Filter.NoneOffends c.operators c.query c.criteria.kept := by
    intro hnone
    apply hnone earlier f later hkept offends
  obtain ⟨before, g, after, hsplit, hbefore, hg⟩ :=
    Filter.exists_first_offending c.operators c.query hsome
  obtain ⟨e, refused⟩ := (Filter.exists_refused_iff c.operators c.query before g).mpr hg
  use e
  apply (build_eq_error_iff_first handlers unclaimed e).mpr
  left
  use before, g, after, hsplit, hbefore, refused

/-- A filter of which its operator cannot take the operand makes a build fail, for this reason
when nothing is wrong with the filters before it, and its field can be qualified. -/
theorem build_eq_error_of_isMisfit {c : Compilation} (handlers : c.handlers = .empty)
    (unclaimed : c.claims = []) {earlier later : List Filter} {f : Filter} {fault : OperandFault}
    (hkept : c.criteria.kept = earlier ++ f :: later) (misfit : f.IsMisfit c.operators fault)
    (hearlier : Filter.NoneOffends c.operators c.query earlier)
    (resolved : ¬ f.IsStranded c.query.rootAlias?) :
  c.build = .error (.operand f.field.text fault)
  := by
  have known : ∀ tag, ¬ f.HasUnknownTag c.operators tag := by
    intro tag unknown
    obtain ⟨op, hop, -⟩ := misfit
    have herror := (c.operators.operatorOf_eq_error_iff f _).mpr ⟨tag, unknown, rfl⟩
    rw [hop] at herror
    cases herror
  apply (build_eq_error_iff_first handlers unclaimed _).mpr
  left
  use earlier, f, later, hkept, hearlier, .operand known resolved misfit

/-- A build without handlers binds two bounds for a range and writes a list of members for a
membership.  No bound is null and none of them is an array, exactly when the ids of the entities
in the operand are none of this.  Where the ids are admitted, other bounds and members are refused
as an invalid operand; and all ids that are read from raw options are admitted. -/
theorem givesAdmitted_of_build (criteria : Criteria) (operators : Operators) (q : Query) :
  (∀ r, ((start q criteria).setOperators operators).build = .ok r →
      ∃ added, r.predicates = q.predicates ++ added
        ∧ List.Forall₂ (Filter.GivesAdmitted operators r.parameter?) criteria.kept added)
    ∧ (∀ earlier f later op items, criteria.kept = earlier ++ f :: later →
        operators.operatorOf f.field.text = .ok op → f.operand = .list items →
        f.operand.HasAdmittedIds op.kind → (∃ v ∈ items, ¬ op.kind.Admits v.toValue) →
        (∃ e, ((start q criteria).setOperators operators).build = .error e)
          ∧ (Filter.NoneOffends operators q earlier → ¬ f.IsStranded q.rootAlias? →
            ∃ fault, ((start q criteria).setOperators operators).build
              = .error (.operand f.field.text fault)))
    ∧ ∀ options, Criteria.ofOptions options = .ok criteria →
        ∀ f ∈ criteria.filters, ∀ kind, f.operand.HasAdmittedIds kind
  := by
  constructor
  · intro r h
    obtain ⟨clauses, terms, rfl, -, hclauses, hbindings⟩ := exists_clauses_of_build_eq_ok h
    use clauses.map (·.predicate), rfl
    apply hclauses.forall₂_predicate hbindings
    intro f clause hclause hkept
    apply Clause.givesAdmitted_of_ofFilter hclause hkept
  · constructor
    · rintro earlier f later op items hkept hop hitems admitted ⟨v, mem, hv⟩
      rw [hitems] at admitted
      obtain ⟨fault, hfault⟩ := Operand.exists_misfit_of_not_admits mem admitted hv
      have misfit : f.IsMisfit operators fault := by
        use op, hop
        rw [hitems]
        exact hfault
      constructor
      · apply exists_build_eq_error_of_offends rfl rfl hkept
        exact .inr (.inr (.inl ⟨fault, misfit⟩))
      · intro hearlier resolved
        use fault
        apply build_eq_error_of_isMisfit rfl rfl hkept misfit hearlier resolved
    · intro options h f hf kind
      apply Criteria.hasAdmittedIds_of_ofOptions h hf

/-- Authors given as entities, with ids between two bounds.  A lower bound of an id that is null
is refused. -/
theorem givesAdmitted_of_build_posts :
  ∃ (options : Json) (criteria broken : Criteria) (operators : Operators) (q r : Query),
    Criteria.ofOptions options = .ok criteria
      ∧ (∀ f ∈ criteria.filters, ∀ kind, f.operand.HasAdmittedIds kind)
      ∧ ((start q criteria).setOperators operators).build = .ok r
      ∧ Keyed.keys r.parameters = ["author_from", "author_to"]
      ∧ (∃ added, r.predicates = q.predicates ++ added
        ∧ List.Forall₂ (Filter.GivesAdmitted operators r.parameter?) criteria.kept added)
      ∧ broken.filter? "id" = some (.list [.null, .int 1])
      ∧ ∃ fault, ((start q broken).setOperators operators).build = .error (.operand "id" fault)
  := by
  let options : Json := .object [("filters", .object [("author",
    .array [.object [("id", .string "a")], .object [("id", .string "k")]])])]
  let criteria : Criteria := ⟨25, 1, [], none,
    [⟨⟨"author", by decide⟩, .list [.entity (.string "a"), .entity (.string "k")]⟩], .empty, true⟩
  let f : Filter := ⟨⟨"id", by decide⟩, .list [.null, .int 1]⟩
  let broken : Criteria := ⟨25, 1, [], none, [f], .empty, true⟩
  let operators : Operators := .ofList [("author", "between"), ("id", "between")]
  let q : Query :=
    ⟨.postgres, "posts", some "post", ["post.*"], [], [], [], [], none, none, none⟩
  have hread : Criteria.ofOptions options = .ok criteria := rfl
  have hop : operators.operatorOf f.field.text = .ok .between := by rfl
  obtain ⟨r, hr, hkeys⟩ : ∃ r, ((start q criteria).setOperators operators).build = .ok r
      ∧ Keyed.keys r.parameters = ["author_from", "author_to"] :=
    exists_eq_ok_of_map_toOption (by decide +kernel)
  obtain ⟨hgives, -, hids⟩ := givesAdmitted_of_build criteria operators q
  obtain ⟨-, hrefuses, -⟩ := givesAdmitted_of_build broken operators q
  have hadmitted : f.operand.HasAdmittedIds Operator.between.kind := by
    rintro id (_ | ⟨mem⟩)
    simp at mem
  have hnull : ∃ v ∈ [Operand.null, .int 1], ¬ Operator.between.kind.Admits v.toValue :=
    ⟨.null, List.mem_cons_self, fun h => h.1 rfl⟩
  have hqualified : ¬ f.IsStranded q.rootAlias? := by
    rintro ⟨-, hlacks⟩
    simp [LacksAlias, q] at hlacks
  refine ⟨options, criteria, broken, operators, q, r, hread, hids options hread, hr, hkeys,
    hgives r hr, rfl, ?_⟩
  exact (hrefuses [] f [] .between _ rfl hop rfl hadmitted hnull).2
    (Filter.noneOffends_nil operators q) hqualified

/-- A draft may hold entities of any ids.  An author without an id gives a lower bound that is
null, and one whose id is an array gives a member that is an array. -/
theorem exists_build_eq_ok_not_admits :
  ∃ (criteria : Criteria) (q r : Query), criteria.Produced
    ∧ criteria.operators.operatorOf "author" = .ok .between
    ∧ criteria.operators.operatorOf "editor" = .ok .isIn
    ∧ (start q criteria).build = .ok r
    ∧ r.parameter? "author_from" = some .null
    ∧ r.predicates = [.between "post.author" "author_from" "author_to",
        .isIn "post.editor" false [.array [.int 1]]]
  := by
  let q : Query :=
    ⟨.postgres, "posts", some "post", ["post.*"], [], [], [], [], none, none, none⟩
  let calls : List Criteria.Draft.Call :=
    [.filter "author" (.list [.entity .null, .int 5]), .operator "author" .between,
      .filter "editor" (.list [.entity (.array [.int 1])]), .operator "editor" .isIn]
  have hbuild : (Criteria.Draft.new.performAll calls).build = .ok _ := rfl
  exact ⟨_, q, _, .draft hbuild, rfl, rfl, rfl, rfl, rfl⟩

end Compilation

end Shortlist
