import Shortlist.Proofs.Compilation.Session
import Shortlist.Proofs.Query.Calls

/-!
# Requested joins

A join is requested of a query again and again, between compilations that add predicates, order
and page.  The first request for a table that is no error decides how the table is joined, and
the select list follows the joins.  The step lemma says what one request makes of this, the run
lemma what holds after all of them.
-/

namespace Shortlist

namespace Join

/-- The join is one of the requested ones, its `check` accepts it, and it accepts none for the
same table before it. -/
def IsFirstOf (requested : List Join) (j : Join) : Prop :=
  ∃ earlier later, requested = earlier ++ j :: later ∧ j.check = .ok ()
    ∧ ∀ i ∈ earlier, i.check = .ok () → i.table ≠ j.table

theorem IsFirstOf.mem {requested : List Join} {j : Join} (h : IsFirstOf requested j) :
  j ∈ requested
  := by
  obtain ⟨earlier, later, rfl, -⟩ := h
  simp

theorem IsFirstOf.check_eq {requested : List Join} {j : Join} (h : IsFirstOf requested j) :
  j.check = .ok ()
  := by
  obtain ⟨_, _, -, hcheck, -⟩ := h
  exact hcheck

/-- One more request changes nothing about the earlier ones, and it is a first one when there is
none for its table before it. -/
theorem isFirstOf_concat (requested : List Join) (i j : Join) :
  IsFirstOf (requested ++ [i]) j
    ↔ IsFirstOf requested j
      ∨ j = i ∧ i.check = .ok () ∧ ∀ k ∈ requested, k.check = .ok () → k.table ≠ i.table
  := by
  constructor
  · rintro ⟨earlier, later, hsplit, hcheck, hearlier⟩
    cases later using List.reverseRecOn with
    | nil =>
      obtain ⟨rfl, hji⟩ := List.append_inj' hsplit rfl
      obtain rfl : i = j := List.singleton_inj.mp hji
      apply Or.inr ⟨rfl, hcheck, hearlier⟩
    | append_singleton later k =>
      rw [← List.cons_append, ← List.append_assoc] at hsplit
      obtain ⟨hrequested, -⟩ := List.append_inj' hsplit rfl
      apply Or.inl ⟨earlier, later, hrequested, hcheck, hearlier⟩
  · rintro (⟨earlier, later, rfl, hcheck, hearlier⟩ | ⟨rfl, hcheck, hearlier⟩)
    · use earlier, later ++ [i]
      rw [List.append_assoc, List.cons_append]
      use rfl, hcheck, hearlier
    · use requested, [], rfl, hcheck, hearlier

/-- Wherever a join is requested that `check` accepts, there is a first one for its table. -/
theorem exists_isFirstOf_iff (requested : List Join) (table : String) :
  (∃ j, IsFirstOf requested j ∧ j.table = table)
    ↔ ∃ i ∈ requested, i.check = .ok () ∧ i.table = table
  := by
  constructor
  · rintro ⟨j, hj, htable⟩
    use j, hj.mem, hj.check_eq, htable
  · intro h
    induction requested using List.reverseRecOn with
    | nil => simp at h
    | append_singleton requested i ih =>
      by_cases hbefore : ∃ k ∈ requested, k.check = .ok () ∧ k.table = table
      · obtain ⟨j, hj, htable⟩ := ih hbefore
        use j, (isFirstOf_concat ..).mpr (.inl hj), htable
      · obtain ⟨k, hk, hcheck, rfl⟩ := h
        obtain hk | hk := List.mem_append.mp hk
        · exact absurd ⟨k, hk, hcheck, rfl⟩ hbefore
        · obtain rfl : k = i := List.mem_singleton.mp hk
          use k, (isFirstOf_concat ..).mpr (.inr ⟨rfl, hcheck, ?_⟩)
          intro m hm hcheck' htable
          apply hbefore ⟨m, hm, hcheck', htable⟩

end Join

namespace Query

/-- What a session does with a query: it requests a join, or it makes calls on a compilation that
begins with the query and has no handlers. -/
inductive Step where
  | join (j : Join)
  | compile (criteria : Criteria) (calls : List Compilation.Call)

/-- The join a step requests. -/
def Step.join? : Step → Option Join
  | .join j => some j
  | .compile .. => none

/-- The query after a step, whether the step fails or not. -/
def take (q : Query) : Step → Query
  | .join j => q.perform (.joinOnce j)
  | .compile criteria calls => ((Compilation.start q criteria).performAll calls).query

/-- The query after a sequence of steps. -/
def takeAll (q : Query) (steps : List Step) : Query :=
  steps.foldl take q

/-- The expression by which the columns of a join are selected. -/
def selectOf (j : Join) : String := j.aliasName ++ ".*"

theorem isJoined_iff (q : Query) (table : String) :
  q.isJoined table = true ↔ ∃ i ∈ q.joins, i.table = table
  := by simp [isJoined]

/-! ### One request -/

/-- A request fails exactly as the check of its join does. -/
theorem joinOnce_eq_error_iff (q : Query) (j : Join) (e : Error) :
  q.joinOnce j = .error e ↔ j.check = .error e
  := by
  rw [joinOnce]
  cases j.check with
  | error e' => simp
  | ok _ => cases hjoined : q.isJoined j.table <;> simp

/-- A request for a table that is joined changes nothing. -/
theorem joinOnce_eq_false_iff (q : Query) (j : Join) (r : Query) :
  q.joinOnce j = .ok (r, false)
    ↔ j.check = .ok () ∧ (∃ i ∈ q.joins, i.table = j.table) ∧ r = q
  := by
  rw [joinOnce, ← isJoined_iff]
  cases j.check with
  | error e => simp
  | ok _ => cases hjoined : q.isJoined j.table <;> simp [eq_comm]

/-- Any other request adds its join and selects its columns. -/
theorem joinOnce_eq_true_iff (q : Query) (j : Join) (r : Query) :
  q.joinOnce j = .ok (r, true)
    ↔ j.check = .ok () ∧ (∀ i ∈ q.joins, i.table ≠ j.table)
      ∧ r = { q with selects := q.selects ++ [selectOf j], joins := q.joins ++ [j] }
  := by
  have hjoins : (∀ i ∈ q.joins, i.table ≠ j.table) ↔ q.isJoined j.table = false := by
    rw [← Bool.not_eq_true, isJoined_iff]
    simp
  rw [joinOnce, hjoins]
  cases j.check with
  | error e => simp
  | ok _ =>
    cases hjoined : q.isJoined j.table <;>
      simp [selectOf, addSelect, addJoin, eq_comm]

theorem perform_joinOnce_of_error (q : Query) {j : Join} {e : Error} (h : j.check = .error e) :
  q.perform (.joinOnce j) = q
  := by rw [perform, (q.joinOnce_eq_error_iff j e).mpr h]

theorem perform_joinOnce_of_mem (q : Query) {i j : Join} (h : j.check = .ok ())
    (hi : i ∈ q.joins) (htable : i.table = j.table) :
  q.perform (.joinOnce j) = q
  := by rw [perform, (q.joinOnce_eq_false_iff j q).mpr ⟨h, ⟨i, hi, htable⟩, rfl⟩]

theorem perform_joinOnce_of_forall_ne (q : Query) {j : Join} (h : j.check = .ok ())
    (hne : ∀ i ∈ q.joins, i.table ≠ j.table) :
  q.perform (.joinOnce j)
    = { q with selects := q.selects ++ [selectOf j], joins := q.joins ++ [j] }
  := by rw [perform, (q.joinOnce_eq_true_iff j _).mpr ⟨h, hne, rfl⟩]

/-! ### All requests -/

/-- The query has joined exactly the first joins of the requested ones, in the order of the
requests, and has selected their columns after the given expressions. -/
structure HasJoined (selects : List String) (requested : List Join) (q : Query) : Prop where
  mem_joins_iff : ∀ j, j ∈ q.joins ↔ j.IsFirstOf requested
  ordered : q.joins.Pairwise fun i j => requested.idxOf i < requested.idxOf j
  distinct : (q.joins.map (·.table)).Nodup
  selects_eq : q.selects = selects ++ q.joins.map selectOf

namespace HasJoined

variable {selects : List String} {requested : List Join} {q r : Query}

theorem of_eq (h : q.HasJoined selects requested) (joins : r.joins = q.joins)
    (selects_eq : r.selects = q.selects) :
  r.HasJoined selects requested
  where
  mem_joins_iff := by rw [joins]; exact h.mem_joins_iff
  ordered := by rw [joins]; exact h.ordered
  distinct := by rw [joins]; exact h.distinct
  selects_eq := by rw [selects_eq, joins]; exact h.selects_eq

/-- The tables that are joined are those of the accepted requests. -/
theorem exists_mem_joins_iff (h : q.HasJoined selects requested) (table : String) :
  (∃ i ∈ q.joins, i.table = table) ↔ ∃ i ∈ requested, i.check = .ok () ∧ i.table = table
  := by
  rw [← Join.exists_isFirstOf_iff]
  simp only [h.mem_joins_iff]

/-- A request that was made before changes nothing. -/
theorem perform_joinOnce (h : q.HasJoined selects requested) {j : Join} (hj : j ∈ requested) :
  q.perform (.joinOnce j) = q
  := by
  cases hcheck : j.check with
  | error e => apply q.perform_joinOnce_of_error hcheck
  | ok _ =>
    obtain ⟨i, hi, htable⟩ := (h.exists_mem_joins_iff j.table).mpr ⟨j, hj, hcheck, rfl⟩
    apply q.perform_joinOnce_of_mem hcheck hi htable

/-- The positions of earlier requests are not changed by one more. -/
theorem ordered_concat (h : q.HasJoined selects requested) (j : Join) :
  q.joins.Pairwise fun i k => (requested ++ [j]).idxOf i < (requested ++ [j]).idxOf k
  := by
  apply h.ordered.imp_of_mem
  intro i k hi hk hlt
  rw [List.idxOf_append_of_mem ((h.mem_joins_iff i).mp hi).mem,
    List.idxOf_append_of_mem ((h.mem_joins_iff k).mp hk).mem]
  exact hlt

/-- A request that is refused, or whose table is joined, is no first one. -/
theorem of_joined (h : q.HasJoined selects requested) {j : Join}
    (hj : j.check = .ok () → ∃ i ∈ q.joins, i.table = j.table) :
  q.HasJoined selects (requested ++ [j])
  where
  mem_joins_iff i := by
    rw [h.mem_joins_iff, Join.isFirstOf_concat, or_iff_left]
    rintro ⟨-, hcheck, hbefore⟩
    obtain ⟨k, hk, hcheck', htable⟩ := (h.exists_mem_joins_iff j.table).mp (hj hcheck)
    apply hbefore k hk hcheck' htable
  ordered := h.ordered_concat j
  distinct := h.distinct
  selects_eq := h.selects_eq

/-- A request that is accepted for another table than those before it is a first one. -/
theorem add (h : q.HasJoined selects requested) {j : Join} (hcheck : j.check = .ok ())
    (hne : ∀ i ∈ q.joins, i.table ≠ j.table) :
  HasJoined selects (requested ++ [j])
    { q with selects := q.selects ++ [selectOf j], joins := q.joins ++ [j] }
  := by
  have hbefore : ∀ k ∈ requested, k.check = .ok () → k.table ≠ j.table := by
    intro k hk hcheck' htable
    obtain ⟨i, hi, htable'⟩ := (h.exists_mem_joins_iff j.table).mpr ⟨k, hk, hcheck', htable⟩
    apply hne i hi htable'
  have hnot : j ∉ requested := fun hj => hbefore j hj hcheck rfl
  constructor
  · intro i
    rw [Join.isFirstOf_concat, List.mem_append, List.mem_singleton, h.mem_joins_iff,
      and_iff_left ⟨hcheck, hbefore⟩]
  · rw [List.pairwise_append]
    use h.ordered_concat j, List.pairwise_singleton ..
    intro i hi k hk
    obtain rfl : k = j := List.mem_singleton.mp hk
    have hmem : i ∈ requested := ((h.mem_joins_iff i).mp hi).mem
    rw [List.idxOf_append_of_mem hmem, List.idxOf_append_of_notMem hnot]
    exact Nat.lt_of_lt_of_le (List.idxOf_lt_length_of_mem hmem) (Nat.le_add_right ..)
  · rw [List.map_append, List.nodup_append']
    use h.distinct, List.nodup_singleton _
    intro table hmem htable
    obtain ⟨i, hi, rfl⟩ := List.mem_map.mp hmem
    apply hne i hi (List.mem_singleton.mp htable)
  · rw [h.selects_eq, List.append_assoc, List.map_append]
    rfl

/-- What one request makes of the joins. -/
theorem perform_concat (h : q.HasJoined selects requested) (j : Join) :
  (q.perform (.joinOnce j)).HasJoined selects (requested ++ [j])
  := by
  cases hcheck : j.check with
  | error e =>
    rw [q.perform_joinOnce_of_error hcheck]
    apply h.of_joined
    simp [hcheck]
  | ok _ =>
    by_cases hjoined : ∃ i ∈ q.joins, i.table = j.table
    · obtain ⟨i, hi, htable⟩ := hjoined
      rw [q.perform_joinOnce_of_mem hcheck hi htable]
      apply h.of_joined
      intro _
      use i, hi, htable
    · have hne : ∀ i ∈ q.joins, i.table ≠ j.table := by
        intro i hi htable
        apply hjoined ⟨i, hi, htable⟩
      rw [q.perform_joinOnce_of_forall_ne hcheck hne]
      apply h.add hcheck hne

end HasJoined

/-- Clauses and listings leave the joins and what is selected. -/
theorem isKept_joins (joins : List Join) (selects : List String) :
  IsKept fun q => q.joins = joins ∧ q.selects = selects
  where
  withClauses _ _ _ h := h
  withListing _ _ h := h

theorem hasJoined_takeAll {q : Query} (joins : q.joins = []) (steps : List Step) :
  (q.takeAll steps).HasJoined q.selects (steps.filterMap Step.join?)
  := by
  induction steps using List.reverseRecOn with
  | nil =>
    have hjoins : (q.takeAll []).joins = [] := joins
    constructor
    · simp [hjoins, Join.IsFirstOf]
    · simp [hjoins]
    · simp [hjoins]
    · rw [hjoins, List.map_nil, List.append_nil]
      rfl
  | append_singleton steps step ih =>
    rw [takeAll, List.foldl_concat, List.filterMap_append]
    cases step with
    | join j => apply ih.perform_concat j
    | compile criteria calls =>
      have hstart : (Compilation.start (q.takeAll steps) criteria).Keeps
          fun r => r.joins = (q.takeAll steps).joins ∧ r.selects = (q.takeAll steps).selects :=
        ⟨rfl, rfl, rfl⟩
      obtain ⟨hjoins, hselects⟩ := (hstart.performAll (isKept_joins _ _) calls).query
      have hnone : [Step.compile criteria calls].filterMap Step.join? = [] := rfl
      rw [hnone, List.append_nil]
      apply ih.of_eq hjoins hselects

/-- Requests that were made before change nothing, in whatever order they are repeated. -/
theorem HasJoined.takeAll_map_join
    {selects : List String} {requested : List Join} {q : Query}
    (h : q.HasJoined selects requested) {again : List Join} (hagain : ∀ j ∈ again, j ∈ requested) :
  q.takeAll (again.map .join) = q
  := by
  induction again with
  | nil => rfl
  | cons j again ih =>
    obtain ⟨hj, hagain⟩ := List.forall_mem_cons.mp hagain
    rw [List.map_cons, takeAll, List.foldl_cons, take, h.perform_joinOnce hj]
    apply ih hagain

/-- Whatever a session has done with a fresh query, a request for a join fails exactly as the
check of the join does, adds nothing where its table is joined, and adds the join otherwise.  The
tables that are joined are distinct, and the joins are the first accepted requests for their
tables, in the order of the requests; their columns are selected in this order, after what was
selected in the beginning.  No request has an effect when it is made again. -/
theorem joined_takeAll
    {dialect : Dialect} {table : String} {rootAlias? : Option String} {q r : Query}
    (h : select dialect table rootAlias? = .ok q) {steps : List Step}
    (hr : r = q.takeAll steps) :
  (∀ j : Join,
      (∀ e, r.joinOnce j = .error e ↔ j.check = .error e)
      ∧ ((∃ e, j.check = .error e) → r.take (.join j) = r)
      ∧ (∀ r', r.joinOnce j = .ok (r', false)
          ↔ j.check = .ok () ∧ (∃ i ∈ r.joins, i.table = j.table) ∧ r' = r)
      ∧ (∀ r', r.joinOnce j = .ok (r', true)
          ↔ j.check = .ok () ∧ (∀ i ∈ r.joins, i.table ≠ j.table)
            ∧ r' = { r with
                selects := r.selects ++ [j.aliasName ++ ".*"]
                joins := r.joins ++ [j] }))
    ∧ (r.joins.map (·.table)).Nodup
    ∧ (∀ j, j ∈ r.joins ↔ j.IsFirstOf (steps.filterMap Step.join?))
    ∧ (r.joins.Pairwise fun i j =>
        (steps.filterMap Step.join?).idxOf i < (steps.filterMap Step.join?).idxOf j)
    ∧ (∀ j ∈ r.joins, j.check = .ok ())
    ∧ r.selects = q.selects ++ r.joins.map (·.aliasName ++ ".*")
    ∧ ∀ again : List Join, (∀ j ∈ again, j ∈ steps.filterMap Step.join?) →
        r.takeAll (again.map .join) = r
  := by
  have hjoins : q.joins = [] := by
    rw [(select_eq_ok h).2.2]
  have hjoined := hasJoined_takeAll hjoins steps
  rw [← hr] at hjoined
  constructor
  · intro j
    use r.joinOnce_eq_error_iff j, ?_, r.joinOnce_eq_false_iff j, r.joinOnce_eq_true_iff j
    rintro ⟨e, he⟩
    apply r.perform_joinOnce_of_error he
  · use hjoined.distinct, hjoined.mem_joins_iff, hjoined.ordered
    constructor
    · intro j hj
      apply ((hjoined.mem_joins_iff j).mp hj).check_eq
    · use hjoined.selects_eq
      intro again hagain
      apply hjoined.takeAll_map_join hagain

/-- A session on posts: of two joins of the authors the first is kept, one with an end of a
statement in its condition is refused, and the tags are joined after filters were added. -/
theorem joined_takeAll_posts :
  ∃ (q r : Query) (authors others unsafeOne tags : Join) (criteria : Criteria),
    select .postgres "posts" (some "post") = .ok q
      ∧ r = q.takeAll [.join unsafeOne, .join authors, .compile criteria [.build], .join others,
          .join tags]
      ∧ r.named = ["id"]
      ∧ r.joins = [authors, tags]
      ∧ others.table = authors.table
      ∧ r.joinOnce unsafeOne = .error (.join (.unsafeCondition "a.id = 1; --"))
      ∧ r.selects = q.selects ++ ["a.*", "t.*"]
      ∧ r.takeAll [.join others, .join unsafeOne, .join authors] = r
  := by
  let q : Query := ⟨.postgres, "posts", some "post", ["post.*"], [], [], [], [], none, none, none⟩
  let authors : Join := ⟨.inner, "authors", "a", some "a.id = post.author_id"⟩
  let others : Join := ⟨.left, "authors", "b", none⟩
  let unsafeOne : Join := ⟨.inner, "comments", "c", some "a.id = 1; --"⟩
  let tags : Join := ⟨.left, "tags", "t", none⟩
  let criteria : Criteria := ⟨10, 1, [], none, [⟨⟨"id", by decide⟩, .int 1⟩], .empty, true⟩
  let r : Query := q.takeAll
    [.join unsafeOne, .join authors, .compile criteria [.build], .join others, .join tags]
  have hselect : select .postgres "posts" (some "post") = .ok q := rfl
  have hr : r = q.takeAll _ := rfl
  have hjoins : r.joins = [authors, tags] := by decide +kernel
  obtain ⟨hrequest, -, -, -, -, hselects, hagain⟩ := joined_takeAll hselect hr
  have hrefused : r.joinOnce unsafeOne = .error (.join (.unsafeCondition "a.id = 1; --")) :=
    ((hrequest unsafeOne).1 _).mpr (by decide +kernel)
  rw [hjoins] at hselects
  exact ⟨q, r, authors, others, unsafeOne, tags, criteria, hselect, hr, by decide +kernel,
    hjoins, rfl, hrefused, hselects, hagain [others, unsafeOne, authors] (by decide +kernel)⟩

end Query

end Shortlist
