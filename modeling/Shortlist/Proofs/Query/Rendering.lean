import Shortlist.Proofs.Query.Numbering

/-!
# Rendered queries

A query has a statement exactly when every parameter its predicates name is bound.  The
statement is then put together from the pieces with the number of each name in its place, and
the parameters of a query count only through the values of the names.
-/

namespace Shortlist

/-- A piece as it stands in a statement: text as it is, a value as the dialect writes it, and a
name as the placeholder of its number. -/
def Piece.written (d : Dialect) (number : String → Nat) : Piece String → String
  | .text s => s
  | .literal v => d.literal v
  | .placeholder name => d.placeholder (number name)

/-- A piece is spelled with numbers for names as it is written. -/
theorem Piece.sql_map (d : Dialect) (number : String → Nat) (p : Piece String) :
  (p.map number).sql d = p.written d number
  := by cases p <;> rfl

/-! ### Names in pieces -/

theorem references_text (s : String) (ps : List (Piece String)) :
  references (.text s :: ps) = references ps
  := rfl

/-- A separator between groups of pieces names nothing. -/
theorem references_separated (separator : String) (groups : List (List (Piece String))) :
  references (separated separator groups) = groups.flatMap references
  := by
  induction groups with
  | nil => rfl
  | cons group groups ih =>
    cases groups with
    | nil => simp [separated, List.intercalate]
    | cons next groups =>
      rw [separated, List.intercalate_cons_cons, references_append, references_append,
        List.flatMap_cons, ← ih, separated]
      simp [references, Piece.placeholder?]

/-- The pieces of a predicate name its parameters, in order. -/
theorem Predicate.references_pieces (p : Predicate) :
  references p.pieces = p.parameters
  := by
  cases p with
  | isIn column negated values =>
    cases values with
    | nil => rfl
    | cons v vs =>
      have hliterals : ((v :: vs).map fun v => [Piece.literal v]).flatMap references = [] := by
        simp [List.flatMap_map, references, Piece.placeholder?]
      rw [pieces, references_text, references_append, references_separated, hliterals]
      rfl
      intro h
      cases h
  | _ => rfl

namespace Query

/-- The parameters the predicates of a query name, in order and as often as they are named. -/
def named (q : Query) : List String :=
  q.predicates.flatMap Predicate.parameters

/-- The conditions of a query name what its predicates name. -/
theorem references_conditionPieces (q : Query) :
  references q.conditionPieces = q.named
  := by
  rw [conditionPieces, named]
  cases hps : q.predicates with
  | nil => rfl
  | cons p ps =>
    rw [List.isEmpty_cons, if_neg Bool.false_ne_true, references_text, references_separated,
      List.flatMap_map]
    congr 1
    funext p
    apply Predicate.references_pieces

/-- The pieces of a query name what its predicates name. -/
theorem references_pieces (q : Query) :
  references q.pieces = q.named
  := by
  rw [← references_conditionPieces, ← List.append_nil (references q.conditionPieces)]
  apply references_append

/-! ### The statement -/

/-- The statement with a number for each name, and the values of the distinct names. -/
def numbered (q : Query) : Rendered where
  sql := String.join (q.pieces.map fun p => (p.map (numberAmong q.named)).sql q.dialect)
  parameters := q.named.eraseDups.filterMap q.parameter?

/-- The numbered statement is its pieces, each as it stands there. -/
theorem sql_numbered_eq_join (q : Query) :
  q.numbered.sql = String.join (q.pieces.map (Piece.written q.dialect (numberAmong q.named)))
  := by simp only [numbered, Piece.sql_map]

/-- A query whose names are all bound has its numbered statement. -/
theorem render_of_bound (q : Query) (h : ∀ name ∈ q.named, (q.parameter? name).isSome) :
  q.render = .ok q.numbered
  := by
  rw [← references_pieces] at h
  rw [render, ← Numbering.after_nil q.parameters, Numbering.assign_after q.pieces (by simp) h,
    List.nil_append, references_pieces]
  simp only [Except.map, numbered, List.map_map]
  rfl

/-- The first name without a value is the error. -/
theorem render_of_unbound
    (q : Query) {earlier later : List String} {name : String}
    (hnamed : q.named = earlier ++ name :: later)
    (hearlier : ∀ other ∈ earlier, (q.parameter? other).isSome)
    (hname : q.parameter? name = none) :
  q.render = .error (.unbound name)
  := by
  rw [← references_pieces] at hnamed
  rw [render, ← Numbering.after_nil q.parameters,
    Numbering.assign_after_of_unbound q.pieces (by simp) hnamed hearlier hname]
  rfl

/-- Where some name has no value, one of them is the first. -/
theorem exists_first_unbound (q : Query) (h : ¬ ∀ name ∈ q.named, (q.parameter? name).isSome) :
  ∃ earlier name later, q.named = earlier ++ name :: later
    ∧ (∀ other ∈ earlier, (q.parameter? other).isSome) ∧ q.parameter? name = none
  := by
  obtain ⟨name, hfind⟩ :
      ∃ name, q.named.find? (fun name => !(q.parameter? name).isSome) = some name := by
    rw [← Option.isSome_iff_exists, List.find?_isSome]
    simpa using h
  obtain ⟨hname, earlier, later, hsplit, hearlier⟩ := List.find?_eq_some_iff_append.mp hfind
  use earlier, name, later, hsplit
  constructor
  · intro other hother
    simpa using hearlier other hother
  · simpa using hname

/-- A query has a statement exactly when its names are bound, and then it is the numbered one. -/
theorem render_eq_ok_iff (q : Query) (r : Rendered) :
  q.render = .ok r ↔ (∀ name ∈ q.named, (q.parameter? name).isSome) ∧ r = q.numbered
  := by
  by_cases h : ∀ name ∈ q.named, (q.parameter? name).isSome
  · rw [render_of_bound q h, Except.ok.injEq, eq_comm, and_iff_right h]
  · obtain ⟨earlier, name, later, hnamed, hearlier, hname⟩ := q.exists_first_unbound h
    rw [render_of_unbound q hnamed hearlier hname]
    constructor
    · intro herror
      cases herror
    · intro hbound
      cases h hbound.1

example :
  (Query.mk .postgres "posts" (some "p") ["p.*"] [] [.compare "p.id" .eq "id",
      .between "p.price" "low" "id"] [("other", .null), ("id", .int 2), ("low", .int 3)]
      [] none none none).render
    = .ok ⟨"SELECT p.* FROM posts p WHERE p.id = $1 AND p.price BETWEEN $2 AND $1",
        [.int 2, .int 3]⟩
  := by rfl

/-! ### Other parameters -/

/-- The query with other parameters. -/
def withParameters (q : Query) (parameters : List (String × Value)) : Query :=
  { q with parameters }

/-- The parameters of a query count only through the values of the names. -/
theorem render_withParameters_congr
    (q : Query) {bound bound' : List (String × Value)}
    (h : ∀ name ∈ q.named, Keyed.get? name bound = Keyed.get? name bound') :
  (q.withParameters bound).render = (q.withParameters bound').render
  := by
  rw [← references_pieces] at h
  rw [render, render]
  congr 1
  apply Numbering.assign_congr _ _ h

end Query

end Shortlist
