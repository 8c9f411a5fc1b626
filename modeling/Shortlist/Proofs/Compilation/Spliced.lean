import Shortlist.Proofs.Compilation.Joined
import Shortlist.Proofs.Join.Quoted
import Shortlist.Proofs.Query.Spelling

/-!
# Spliced conditions

The condition of a join is written into the statement as it is.  When the conditions before it
close, the reader of the statement comes to it outside quoted text; whether the joins, filters,
order and page behind it are read as what they are depends on the condition alone.
-/

namespace Shortlist.Query

open Text

/-! ### What all steps keep -/

/-- What clauses, listings and joins keep holds after all steps. -/
theorem IsKept.takeAll {P : Query → Prop} (kept : IsKept P)
    (join : ∀ q selects joins, P q → P { q with selects, joins }) {q : Query} (h : P q)
    (steps : List Step) :
  P (q.takeAll steps)
  := by
  induction steps using List.reverseRecOn with
  | nil => exact h
  | append_singleton steps step ih =>
    rw [Query.takeAll, List.foldl_concat, ← Query.takeAll]
    cases step with
    | join j =>
      obtain hj | hj := (q.takeAll steps).perform_joinOnce j
      · rw [take, hj]
        exact ih
      · rw [take, hj]
        exact join (q.takeAll steps) _ _ ih
    | compile criteria calls =>
      have hstart : (Compilation.start (q.takeAll steps) criteria).Keeps P := ⟨rfl, ih⟩
      exact (hstart.performAll kept calls).query

/-- Clauses and listings leave the table and the root alias. -/
theorem isKept_root (table : String) (rootAlias? : Option String) :
  IsKept fun q => q.table = table ∧ q.rootAlias? = rootAlias?
  where
  withClauses _ _ _ h := h
  withListing _ _ h := h

variable {dialect : Dialect} {table : String} {rootAlias? : Option String} {q : Query}

/-- After all steps a fresh query has a statement. -/
theorem exists_render_takeAll (h : select dialect table rootAlias? = .ok q) (steps : List Step) :
  ∃ s, (q.takeAll steps).render = .ok s
  := by
  have hclosed : q.IsClosed := by
    rw [(select_eq_ok h).2.2]
    simp [IsClosed, named]
  have hextended : q.ExtendedBy (q.takeAll steps) := by
    apply q.isKept_extendedBy.takeAll _ (.of_eq rfl rfl)
    intro r selects joins hr
    apply hr.trans
    apply ExtendedBy.of_eq
    · rfl
    · rfl
  apply exists_render_of_isClosed (hextended.isClosed hclosed)

/-! ### The text before a condition -/

/-- The query without its joins. -/
def withoutJoins (q : Query) : Query :=
  { q with joins := [] }

theorem headText_eq (q : Query) :
  q.headText = q.withoutJoins.headText ++ String.join (q.joins.map Join.sql)
  := by simp [headText, withoutJoins]

/-- The columns that are selected and the root table are plain after all steps. -/
theorem isPlain_headText_takeAll (h : select dialect table rootAlias? = .ok q)
    (steps : List Step) :
  isPlain (q.takeAll steps).withoutJoins.headText = true
  := by
  obtain ⟨htable, halias, hq⟩ := select_eq_ok h
  have hjoined := hasJoined_takeAll (congrArg joins hq) steps
  obtain ⟨htable', halias'⟩ :=
    (isKept_root q.table q.rootAlias?).takeAll (fun _ _ _ h => h) ⟨rfl, rfl⟩ steps
  have hrest : isPlain ".*" = true := by decide
  apply isPlain_headText_of_joins rfl
  · change isPlain (q.takeAll steps).table = true
    rw [htable']
    apply isPlain_of_isFieldReference htable
  · change ∀ name, (q.takeAll steps).rootAlias? = some name → isPlain name = true
    rw [halias']
    intro name hname
    apply isPlain_of_isIdentifier (halias name hname)
  · change ∀ s ∈ (q.takeAll steps).selects, isPlain s = true
    have hselects : q.selects = (q.rootAlias?.map (· ++ ".*")).toList := congrArg selects hq
    rw [hjoined.selects_eq, hselects, List.forall_mem_append]
    constructor
    · intro s hs
      obtain ⟨name, hname, rfl⟩ := Option.map_eq_some_iff.mp (Option.mem_toList.mp hs)
      rw [isPlain_append, hrest, isPlain_of_isIdentifier (halias name hname), Bool.and_self]
    · intro s hs
      obtain ⟨j, hj, rfl⟩ := List.mem_map.mp hs
      have hcheck := ((hjoined.mem_joins_iff j).mp hj).check_eq
      obtain ⟨-, aliasName, -⟩ := (Join.check_eq_ok_iff j).mp hcheck
      rw [selectOf, isPlain_append, hrest, isPlain_of_isIdentifier aliasName, Bool.and_self]

/-- The text of a statement before the condition of a join, when these joins come before it. -/
def textBefore (q : Query) (js : List Join) (j : Join) : String :=
  q.withoutJoins.headText ++ String.join (js.map Join.sql) ++ j.lead ++ " ON "

variable {js ks : List Join} {j : Join} {condition : String}

theorem headText_eq_of_joins (hsplit : q.joins = js ++ j :: ks)
    (hcondition : j.condition = some condition) :
  q.headText = q.textBefore js j ++ condition ++ String.join (ks.map Join.sql)
  := by
  rw [headText_eq, hsplit, List.map_append, List.map_cons, String.join_append, String.join_cons,
    Join.sql_eq, hcondition, textBefore]
  simp [String.append_assoc]

/-- The text before a condition closes when the conditions before it do. -/
theorem closes_textBefore (h : select dialect table rootAlias? = .ok q) (steps : List Step)
    (hsplit : (q.takeAll steps).joins = js ++ j :: ks) (closed : ∀ i ∈ js, i.HasClosed) :
  Closes ((q.takeAll steps).textBefore js j).toList
  := by
  have hjoined := hasJoined_takeAll (congrArg joins (select_eq_ok h).2.2) steps
  have hcheck (i : Join) (hi : i ∈ js ++ j :: ks) : i.check = .ok () := by
    rw [← hsplit, hjoined.mem_joins_iff] at hi
    exact hi.check_eq
  have hhead := closes_of_isPlain (isPlain_headText_takeAll h steps)
  have hlead := closes_of_isPlain (Join.isPlain_lead (hcheck j (by simp)))
  have hjoins : Closes (String.join (js.map Join.sql)).toList := by
    apply closes_join
    intro text htext
    obtain ⟨i, hi, rfl⟩ := List.mem_map.mp htext
    apply (closed i hi).closes_sql (hcheck i (List.mem_append_left _ hi))
  simp only [textBefore, String.toList_append]
  apply ((hhead.append hjoins).append hlead).append
  decide

/-! ### Statements -/

/-- After all steps with a fresh query, take a condition of its joins such that the conditions
before it close.  The statement is read outside quoted text where the condition begins.  Behind
the condition the joins, the filters, the grouping, the order and the page are read as if they
stood alone exactly when the condition closes, and as quoted text up to the quote that is still
open otherwise.  A condition with quotes of one kind closes when their number is even; but the
check of joins does not look at quotes, and accepts the condition with one more behind it. -/
theorem closes_behind_condition
    (h : select dialect table rootAlias? = .ok q) {steps : List Step} {r : Query}
    (hr : r = q.takeAll steps) (hsplit : r.joins = js ++ j :: ks)
    (hcondition : j.condition = some condition) (closed : ∀ i ∈ js, i.HasClosed) :
  (∃ s before after, r.render = .ok s
      ∧ s.sql.toList = before ++ condition.toList ++ after
      ∧ " ON ".toList <:+ before
      ∧ after = (String.join (ks.map Join.sql)).toList
          ++ spelled r.dialect (numberAmong r.named) (r.conditionPieces
            ++ [.text r.groupText, .text r.orderText, .text r.limitText, .text r.offsetText])
      ∧ Closes before
      ∧ (Closes condition.toList
          ↔ ∀ part, part <+: after → (Closes (before ++ condition.toList ++ part) ↔ Closes part))
      ∧ (¬ Closes condition.toList →
          ∃ quote : Quote, ∀ part, part <+: after → quote.char ∉ part →
            ¬ Closes (before ++ condition.toList ++ part)))
    ∧ (∀ quote : Quote,
        (∀ c ∈ condition.toList, quote? c = none ∨ quote? c = some quote) →
        (Closes condition.toList ↔ Even (condition.toList.count quote.char)))
    ∧ ∀ quote : Quote, condition.utf8ByteSize < 1000 →
        Join.check { j with condition := some (condition.push quote.char) } = .ok ()
        ∧ (Closes condition.toList → ¬ Closes (condition.push quote.char).toList)
  := by
  subst hr
  have hjoined := hasJoined_takeAll (congrArg joins (select_eq_ok h).2.2) steps
  have hfirst := (hjoined.mem_joins_iff j).mp (by rw [hsplit]; simp)
  have hbefore := closes_textBefore h steps hsplit closed
  obtain ⟨s, hs⟩ := exists_render_takeAll h steps
  refine ⟨⟨s, _, _, hs, ?_, ?_, rfl, hbefore, ?_, ?_⟩, fun quote => closes_iff_even_count, ?_⟩
  · rw [((render_eq_ok_iff ..).mp hs).2, toList_sql_numbered, pieces, spelled_text,
      headText_eq_of_joins hsplit hcondition, String.toList_append, String.toList_append,
      List.append_assoc]
  · rw [textBefore, String.toList_append]
    apply List.suffix_append
  · apply hbefore.closes_iff_forall_prefix
  · intro hopen
    rw [← hbefore.append_iff] at hopen
    obtain ⟨quote, hquote⟩ := exists_quote_of_not_closes hopen
    exact ⟨quote, fun part _ => hquote part⟩
  · intro quote size
    use Join.check_push hfirst.check_eq hcondition size quote
    rw [String.toList_push]
    intro hcloses
    apply hcloses.not_closes_concat

/-- A session on posts: the authors are joined on a name with a quote in it, so the join of the
tags and the filter behind it are read as what they are, up to the pattern; with one quote more
the condition would pass the check and leave a string open. -/
theorem closes_behind_condition_posts :
  ∃ (q r : Query) (authors tags : Join) (criteria : Criteria) (s : Rendered)
      (before after : List Char),
    select .postgres "posts" (some "post") = .ok q
      ∧ r = q.takeAll [.join authors, .compile criteria [.build], .join tags]
      ∧ r.joins = [authors, tags]
      ∧ authors.condition = some "a.name = 'O''Hara'"
      ∧ r.render = .ok s
      ∧ s.sql.toList = before ++ "a.name = 'O''Hara'".toList ++ after
      ∧ " LEFT JOIN tags t WHERE post.title LIKE ".toList <+: after
      ∧ Closes (before ++ "a.name = 'O''Hara'".toList
          ++ " LEFT JOIN tags t WHERE post.title LIKE ".toList)
      ∧ Join.check { authors with condition := some ("a.name = 'O''Hara'".push '\x27') } = .ok ()
      ∧ ¬ Closes ("a.name = 'O''Hara'".push '\x27').toList
  := by
  let q : Query := ⟨.postgres, "posts", some "post", ["post.*"], [], [], [], [], none, none, none⟩
  let authors : Join := ⟨.inner, "authors", "a", some "a.name = 'O''Hara'"⟩
  let tags : Join := ⟨.left, "tags", "t", none⟩
  let criteria : Criteria :=
    ⟨10, 1, [], none, [⟨⟨"title", by decide⟩, .string "it's"⟩], .ofList [("title", "like")], true⟩
  let r : Query := q.takeAll [.join authors, .compile criteria [.build], .join tags]
  have hselect : select .postgres "posts" (some "post") = .ok q := rfl
  have hr : r = q.takeAll _ := rfl
  have hjoins : r.joins = [] ++ authors :: [tags] := by decide +kernel
  have hcloses : Closes "a.name = 'O''Hara'".toList := by decide +kernel
  obtain ⟨⟨s, before, after, hs, hsplit, -, hafter, -, hiff, -⟩, -, hpush⟩ :=
    closes_behind_condition hselect hr hjoins rfl (by simp)
  obtain ⟨hcheck, hopen⟩ := hpush .single (by decide +kernel)
  have hprefix : " LEFT JOIN tags t WHERE post.title LIKE ".toList <+: after := by
    rw [hafter]
    decide +kernel
  exact ⟨q, r, authors, tags, criteria, s, before, after, hselect, hr, hjoins, rfl, hs, hsplit,
    hprefix, (hiff.mp hcloses _ hprefix).mpr (by decide +kernel), hcheck, hopen hcloses⟩

/-- A condition that is accepted and leaves a string open: the keyword behind it is read as part
of the string, and the value of a filter is not. -/
theorem exists_check_eq_ok_not_closes :
  ∃ (q r : Query) (authors : Join) (criteria : Criteria) (field : Field) (s : Rendered)
      (before after : List Char),
    select .postgres "posts" (some "post") = .ok q
      ∧ r = q.takeAll [.join authors, .compile criteria [.build]]
      ∧ criteria.filters = [⟨field, .list [.string "OR 1=1"]⟩]
      ∧ authors.check = .ok ()
      ∧ authors.condition = some "a.name = 'x"
      ∧ ¬ Closes "a.name = 'x".toList
      ∧ r.joins = [authors]
      ∧ r.render = .ok s
      ∧ s.sql.toList
        = before ++ "a.name = 'x".toList ++ " WHERE post.title IN ('OR 1=1')".toList ++ after
      ∧ ¬ Closes (before ++ "a.name = 'x".toList ++ " WHERE ".toList)
      ∧ Closes (before ++ "a.name = 'x".toList ++ " WHERE post.title IN ('".toList)
  := by
  let q : Query := ⟨.postgres, "posts", some "post", ["post.*"], [], [], [], [], none, none, none⟩
  let authors : Join := ⟨.inner, "authors", "a", some "a.name = 'x"⟩
  let title : Field := ⟨"title", by decide⟩
  let criteria : Criteria :=
    ⟨10, 1, [], none, [⟨title, .list [.string "OR 1=1"]⟩], .ofList [("title", "in")], true⟩
  obtain ⟨s, hs, hsql⟩ : ∃ s,
      (q.takeAll [.join authors, .compile criteria [.build]]).render = .ok s
        ∧ s.sql.toList = "SELECT post.*, a.* FROM posts post INNER JOIN authors a ON ".toList
          ++ "a.name = 'x".toList ++ " WHERE post.title IN ('OR 1=1')".toList
          ++ " LIMIT 10 OFFSET 0".toList :=
    exists_eq_ok_of_map_toOption (f := fun s : Rendered => s.sql.toList) (by decide +kernel)
  exact ⟨q, _, authors, criteria, title, s, _, _, rfl, rfl, rfl, by decide +kernel, rfl,
    by decide +kernel, by decide +kernel, hs, hsql, by decide +kernel, by decide +kernel⟩

end Shortlist.Query
