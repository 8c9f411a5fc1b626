import Shortlist.Proofs.Query.Rendering

/-!
# Calls on queries

A query is built up by calls.  A call either binds a parameter or changes the rest of the
query, and never both, so what a sequence of calls leaves behind is known from the calls that
do not bind and, for every parameter, from the last call that binds it.
-/

namespace Shortlist.Query

/-- An operation that changes a query. -/
inductive Call where
  | addPredicate (p : Predicate)
  | bind (name : String) (v : Value)
  | addOrder (column : String) (d : Direction)
  | group (column : String)
  | setLimit (n : UInt64)
  | setOffset (n : UInt64)
  | addSelect (expression : String)
  | addJoin (j : Join)
  | joinOnce (j : Join)

/-- The query after a call.  A join that is refused changes nothing. -/
def perform (q : Query) : Call → Query
  | .addPredicate p => q.addPredicate p
  | .bind name v => q.bind name v
  | .addOrder column d => q.addOrder column d
  | .group column => q.group column
  | .setLimit n => q.setLimit n
  | .setOffset n => q.setOffset n
  | .addSelect expression => q.addSelect expression
  | .addJoin j => q.addJoin j
  | .joinOnce j =>
    match q.joinOnce j with
    | .ok (q, _) => q
    | .error _ => q

/-- The query after a sequence of calls. -/
def performAll (q : Query) (calls : List Call) : Query :=
  calls.foldl perform q

namespace Call

/-- Whether a call binds a parameter. -/
def isBind : Call → Bool
  | .bind .. => true
  | _ => false

/-- The value a call binds a parameter to. -/
def value? (name : String) : Call → Option Value
  | .bind other v => if other = name then some v else none
  | _ => none

/-- The parameters named by the predicate a call adds. -/
def named : Call → List String
  | .addPredicate p => p.parameters
  | _ => []

/-- The value a parameter is bound to by the last call that binds it. -/
def lastValue? (calls : List Call) (name : String) : Option Value :=
  calls.reverse.findSome? (value? name)

end Call

/-! ### One call -/

theorem perform_joinOnce (q : Query) (j : Join) :
  q.perform (.joinOnce j) = q
    ∨ q.perform (.joinOnce j) = (q.addSelect (j.aliasName ++ ".*")).addJoin j
  := by
  rw [perform, joinOnce]
  cases j.check with
  | error e =>
    left
    rfl
  | ok _ =>
    cases hjoined : q.isJoined j.table with
    | true =>
      left
      simp only [if_true]
    | false =>
      right
      simp only [Bool.false_eq_true, if_false]

theorem named_perform (q : Query) (c : Call) :
  (q.perform c).named = q.named ++ c.named
  := by
  cases c with
  | addPredicate p => simp [perform, addPredicate, named, Call.named]
  | joinOnce j =>
    have hnamed : (Call.joinOnce j).named = [] := rfl
    rw [hnamed, List.append_nil]
    obtain h | h := q.perform_joinOnce j
    · rw [h]
    · rw [h]
      rfl
  | _ =>
    symm
    apply List.append_nil

theorem dialect_perform (q : Query) (c : Call) :
  (q.perform c).dialect = q.dialect
  := by
  cases c with
  | joinOnce j =>
    obtain h | h := q.perform_joinOnce j
    · rw [h]
    · rw [h]
      rfl
  | _ => rfl

/-- A call that does not bind does not look at the parameters either. -/
theorem perform_withParameters
    (q : Query) (bound : List (String × Value)) {c : Call} (h : c.isBind = false) :
  (q.withParameters bound).perform c = (q.perform c).withParameters bound
  := by
  cases c with
  | bind name v => cases h
  | joinOnce j =>
    have hjoined : (q.withParameters bound).isJoined j.table = q.isJoined j.table := rfl
    rw [perform, perform, joinOnce, joinOnce, hjoined]
    cases j.check with
    | error e => rfl
    | ok _ => cases q.isJoined j.table <;> rfl
  | _ => rfl

/-- A call that binds changes nothing but the parameters. -/
theorem perform_of_isBind (q : Query) {c : Call} (h : c.isBind = true) :
  ∃ bound, q.perform c = q.withParameters bound
  := by
  cases c with
  | bind name v => exact ⟨Keyed.put name v q.parameters, rfl⟩
  | _ => cases h

theorem parameter?_perform (q : Query) (c : Call) (name : String) :
  (q.perform c).parameter? name = (c.value? name).or (q.parameter? name)
  := by
  cases c with
  | bind other v =>
    rw [perform, parameter?_bind, Call.value?]
    split <;> rfl
  | joinOnce j =>
    obtain h | h := q.perform_joinOnce j
    · rw [h]
      rfl
    · rw [h]
      rfl
  | _ => rfl

/-! ### Sequences of calls -/

theorem performAll_concat (q : Query) (calls : List Call) (c : Call) :
  q.performAll (calls ++ [c]) = (q.performAll calls).perform c
  := by rw [performAll, List.foldl_concat, performAll]

theorem Call.lastValue?_concat (calls : List Call) (c : Call) (name : String) :
  lastValue? (calls ++ [c]) name = (c.value? name).or (lastValue? calls name)
  := by
  rw [lastValue?, List.reverse_concat, List.findSome?_cons, lastValue?]
  cases c.value? name with
  | none => rfl
  | some v => rfl

/-- The last call that binds a parameter decides on its value. -/
theorem parameter?_performAll (q : Query) (calls : List Call) (name : String) :
  (q.performAll calls).parameter? name = (Call.lastValue? calls name).or (q.parameter? name)
  := by
  induction calls using List.reverseRecOn with
  | nil => rfl
  | append_singleton calls c ih =>
    rw [performAll_concat, parameter?_perform, ih, Call.lastValue?_concat, Option.or_assoc]

theorem named_performAll (q : Query) (calls : List Call) :
  (q.performAll calls).named = q.named ++ calls.flatMap Call.named
  := by
  induction calls using List.reverseRecOn with
  | nil =>
    symm
    apply List.append_nil
  | append_singleton calls c ih =>
    rw [performAll_concat, named_perform, ih, List.flatMap_append, List.append_assoc,
      List.flatMap_singleton]

theorem dialect_performAll (q : Query) (calls : List Call) :
  (q.performAll calls).dialect = q.dialect
  := by
  induction calls using List.reverseRecOn with
  | nil => rfl
  | append_singleton calls c ih => rw [performAll_concat, dialect_perform, ih]

/-- But for its parameters a query is what the calls that do not bind make of it. -/
theorem exists_performAll_eq (q : Query) (calls : List Call) :
  ∃ bound, q.performAll calls
    = (q.performAll (calls.filter (!·.isBind))).withParameters bound
  := by
  induction calls using List.reverseRecOn with
  | nil => exact ⟨q.parameters, rfl⟩
  | append_singleton calls c ih =>
    obtain ⟨bound, ih⟩ := ih
    rw [performAll_concat, List.filter_append]
    cases hc : c.isBind with
    | true =>
      obtain ⟨bound', h⟩ := perform_of_isBind (q.performAll calls) hc
      use bound'
      rw [h, ih, List.filter_cons_of_neg (by simp [hc]), List.filter_nil, List.append_nil]
      rfl
    | false =>
      use bound
      rw [ih, perform_withParameters _ _ hc, List.filter_cons_of_pos (by simp [hc]),
        List.filter_nil, performAll_concat]

/-! ### Rendering -/

/-- Where two sequences of calls differ only in what they bind, and agree on the last value of
every name, they have the same statement. -/
theorem render_performAll_congr
    (q : Query) {calls calls' : List Call}
    (hcalls : calls'.filter (!·.isBind) = calls.filter (!·.isBind))
    (hvalues : ∀ name ∈ (q.performAll calls).named,
      Call.lastValue? calls' name = Call.lastValue? calls name) :
  (q.performAll calls').render = (q.performAll calls).render
  := by
  obtain ⟨bound, h⟩ := q.exists_performAll_eq calls
  obtain ⟨bound', h'⟩ := q.exists_performAll_eq calls'
  rw [hcalls] at h'
  have hget (name : String) : Keyed.get? name bound = (q.performAll calls).parameter? name := by
    rw [h]
    rfl
  have hget' (name : String) : Keyed.get? name bound' = (q.performAll calls').parameter? name := by
    rw [h']
    rfl
  rw [h, h']
  apply render_withParameters_congr
  intro name hname
  rw [hget, hget', parameter?_performAll, parameter?_performAll, hvalues name (by rwa [h])]

/-- What calls leave of a fresh query is known from the calls alone. -/
theorem performAll_select
    {dialect : Dialect} {table : String} {rootAlias? : Option String} {q : Query}
    (h : select dialect table rootAlias? = .ok q) (calls : List Call) :
  (q.performAll calls).named = calls.flatMap Call.named
    ∧ (q.performAll calls).parameter? = Call.lastValue? calls
    ∧ (q.performAll calls).dialect = dialect
  := by
  obtain ⟨-, -, hq⟩ := select_eq_ok h
  constructor
  · rw [named_performAll, named, hq, List.flatMap_nil, List.nil_append]
  · constructor
    · funext name
      rw [parameter?_performAll, parameter?, hq, Keyed.get?, Option.or_none]
    · rw [dialect_performAll, hq]

/-- A query built up from nothing by any calls has a statement exactly when every name its
predicates mention was bound, and else the first name that was not bound is the error.  In the
statement the distinct names are numbered in the order in which they are first met, against
the values bound last, and what was bound otherwise, or in another order, does not matter. -/
theorem render_performAll
    {dialect : Dialect} {table : String} {rootAlias? : Option String} {q : Query}
    (h : select dialect table rootAlias? = .ok q) (calls : List Call) :
  ((∃ r, (q.performAll calls).render = .ok r)
    ↔ ∀ name ∈ calls.flatMap Call.named, (Call.lastValue? calls name).isSome)
  ∧ (∀ earlier name later, calls.flatMap Call.named = earlier ++ name :: later →
      (∀ other ∈ earlier, (Call.lastValue? calls other).isSome) →
      Call.lastValue? calls name = none →
      (q.performAll calls).render = .error (.unbound name))
  ∧ (∀ r, (q.performAll calls).render = .ok r →
      references (q.performAll calls).pieces = calls.flatMap Call.named
      ∧ ∃ number,
        Numbers (calls.flatMap Call.named) (Call.lastValue? calls) r.parameters number
        ∧ r.sql = String.join ((q.performAll calls).pieces.map (Piece.written dialect number)))
  ∧ (∀ calls' : List Call, calls'.filter (!·.isBind) = calls.filter (!·.isBind) →
      (∀ name ∈ calls.flatMap Call.named,
        Call.lastValue? calls' name = Call.lastValue? calls name) →
      (q.performAll calls').render = (q.performAll calls).render)
  := by
  obtain ⟨hnamed, hvalue, hdialect⟩ := performAll_select h calls
  rw [← hnamed, ← hvalue]
  constructor
  · constructor
    · rintro ⟨r, hr⟩
      apply ((render_eq_ok_iff _ r).mp hr).1
    · intro hbound
      exact ⟨_, render_of_bound _ hbound⟩
  · constructor
    · intro earlier name later hsplit hearlier hname
      apply render_of_unbound _ hsplit hearlier hname
    · constructor
      · intro r hr
        obtain ⟨hbound, rfl⟩ := (render_eq_ok_iff _ r).mp hr
        constructor
        · apply references_pieces
        · use numberAmong (q.performAll calls).named
          constructor
          · apply numbers_numberAmong hbound
          · rw [sql_numbered_eq_join, hdialect]
      · intro calls' hcalls hvalues
        apply render_performAll_congr q hcalls
        intro name hname
        rw [hvalues name hname, hvalue]

/-- Parameters are numbered as they are met, against the values bound last.  Without a value for
one of them there is no statement, and values in another order change nothing. -/
theorem render_performAll_posts :
  ∃ q, select .postgres "posts" (some "p") = .ok q
    ∧ (q.performAll
      [.bind "id" (.int 1), .addPredicate (.compare "p.id" .eq "id"),
        .addPredicate (.between "p.price" "low" "id"), .bind "other" .null,
        .bind "low" (.int 3), .bind "id" (.int 2)]).render
      = .ok ⟨"SELECT p.* FROM posts p WHERE p.id = $1 AND p.price BETWEEN $2 AND $1",
          [.int 2, .int 3]⟩
    ∧ (q.performAll
      [.bind "id" (.int 1), .addPredicate (.compare "p.id" .eq "id"),
        .addPredicate (.between "p.price" "low" "id")]).render = .error (.unbound "low")
    ∧ (q.performAll
      [.bind "low" (.int 3), .addPredicate (.compare "p.id" .eq "id"), .bind "id" (.int 2),
        .addPredicate (.between "p.price" "low" "id")]).render
      = .ok ⟨"SELECT p.* FROM posts p WHERE p.id = $1 AND p.price BETWEEN $2 AND $1",
          [.int 2, .int 3]⟩
  := by
  have hselect : select .postgres "posts" (some "p") = .ok _ := rfl
  refine ⟨_, hselect, rfl, ?_, ?_⟩
  · apply (render_performAll hselect _).2.1 ["id"] "low" ["id"] rfl
    · decide
    · rfl
  · -- the calls of the first statement, which bind the same values at other places
    have hcalls := (render_performAll hselect
      [.bind "id" (.int 1), .addPredicate (.compare "p.id" .eq "id"),
        .addPredicate (.between "p.price" "low" "id"), .bind "other" .null,
        .bind "low" (.int 3), .bind "id" (.int 2)]).2.2.2
    apply (hcalls _ ?_ ?_).trans
    · rfl
    · rfl
    · intro name hname
      have hnames : name ∈ ["id", "low", "id"] := hname
      simp only [List.mem_cons, List.not_mem_nil, or_false] at hnames
      rcases hnames with rfl | rfl | rfl <;> rfl

end Shortlist.Query
