import Shortlist.Model.Basic
import Shortlist.Proofs.Compilation.Qualified
import Shortlist.Proofs.Field.Shape
import Shortlist.Proofs.Model.Name

/-!
# Root aliases of models

The root alias of a model is the snake case of the base name of its type.  When the base name is
an identifier, so is the alias, in small letters, unless underscores have made it too long, and
then there is no default query.
-/

namespace Shortlist

open Text

/-! ### Snake case of identifiers -/

variable {cs : List Char}

/-- The snake case of word characters is made of word characters. -/
theorem isWordChar_of_mem_snakeCaseFrom (h : ∀ c ∈ cs, isWordChar c = true) (inWord : Bool) :
  ∀ c ∈ snakeCaseFrom inWord cs, isWordChar c = true
  := by
  intro d hd
  have hmade := eq_or_eq_toLower_of_mem_snakeCaseFrom (isAscii_of_isWordChar h) inWord d hd
  rcases hmade with rfl | ⟨c, hc, rfl⟩
  · rfl
  · rw [isWordChar_toLower, h c hc]

/-- The snake case of an identifier begins as one, so it is one when it is not too long. -/
theorem isIdentifierText_snakeCaseFrom_iff (h : isIdentifierText cs = true) :
  isIdentifierText (snakeCaseFrom false cs) = true
    ↔ (snakeCaseFrom false cs).length ≤ maxIdentifierLength
  := by
  have hword := isWordChar_of_mem_snakeCaseFrom (isWordChar_of_isIdentifierText h) false
  have hascii := isAscii_of_isWordChar (isWordChar_of_isIdentifierText h)
  cases cs with
  | nil => cases h
  | cons c cs =>
    rw [isIdentifierText, Bool.and_eq_true, Bool.and_eq_true] at h
    have hstart : (c.toLower.isAlpha || c.toLower == '_') = (c.isAlpha || c == '_') := by
      apply apply_toLower (f := fun c => c.isAlpha || c == '_') (a := true)
      intro c halpha
      rw [halpha, Bool.true_or]
    rw [snakeCaseFrom_cons (hascii c List.mem_cons_self), Bool.and_false] at hword ⊢
    have hrest := (List.forall_mem_cons.mp hword).2
    rw [if_neg Bool.false_ne_true, List.nil_append, isIdentifierText, hstart, h.1.1,
      List.all_eq_true.mpr hrest, Bool.true_and, Bool.true_and, decide_eq_true_eq, List.length_cons]
    apply Nat.lt_iff_add_one_le

/-- The snake case of an identifier is one unless it is too long. -/
theorem isIdentifier_snakeCase_iff {s : String} (h : isIdentifier s = true) :
  isIdentifier (snakeCase s) = true ↔ (snakeCase s).utf8ByteSize ≤ maxIdentifierLength
  := by
  have hword := isWordChar_of_mem_snakeCaseFrom (isWordChar_of_isIdentifierText h) false
  rw [snakeCase, isIdentifier, String.toList_ofList, String.utf8ByteSize_ofList,
    utf8Len_of_isAscii (isAscii_of_isWordChar hword)]
  apply isIdentifierText_snakeCaseFrom_iff h

/-! ### Default queries -/

/-- A query over a table that may be read can be made when the alias is an identifier. -/
theorem Query.exists_select_iff {table name : String} (htable : isFieldReference table = true)
    (hname : name ≠ "") (d : Dialect) :
  (∃ q, select d table (some name) = .ok q) ↔ isIdentifier name = true
  := by
  have hgiven : (some name).filter (!·.isEmpty) = some name := by simp [hname]
  rw [select, htable, hgiven]
  cases h : isIdentifier name <;> simp [Option.filter_some, h]

theorem snakeCaseFrom_ne_nil (h : isIdentifierText cs = true) :
  snakeCaseFrom false cs ≠ []
  := by
  have hascii := isAscii_of_isWordChar (isWordChar_of_isIdentifierText h)
  cases cs with
  | nil => cases h
  | cons c cs =>
    rw [snakeCaseFrom_cons (hascii c List.mem_cons_self)]
    simp

/-- The snake case of an identifier is not empty. -/
theorem snakeCase_ne_empty {s : String} (h : isIdentifier s = true) :
  snakeCase s ≠ ""
  := by
  rw [snakeCase, ne_eq, String.ofList_eq_empty_iff]
  apply snakeCaseFrom_ne_nil h

namespace Model

variable {m : Model}

/-- A model has a default query exactly when its alias is not too long. -/
theorem exists_defaultQuery_iff (htable : isFieldReference m.table = true)
    (hentity : isIdentifier (baseName m.entity) = true) :
  (∃ q, m.defaultQuery = .ok q) ↔ (snakeCase (baseName m.entity)).utf8ByteSize ≤ 63
  := by
  rw [defaultQuery, query, rootAlias, Query.exists_select_iff htable (snakeCase_ne_empty hentity)]
  apply isIdentifier_snakeCase_iff hentity

/-- The root alias of a default query is the snake case of the base name, which is an identifier. -/
theorem rootAlias?_of_defaultQuery (hentity : isIdentifier (baseName m.entity) = true) {q : Query}
    (h : m.defaultQuery = .ok q) :
  q.rootAlias? = some (snakeCase (baseName m.entity))
    ∧ isIdentifier (snakeCase (baseName m.entity)) = true
  := by
  rw [defaultQuery, query, rootAlias] at h
  have hroot : q.rootAlias? = some (snakeCase (baseName m.entity)) := by
    rw [Query.rootAlias?_of_select h, Option.filter_some]
    simp [snakeCase_ne_empty hentity]
  exact ⟨hroot, (Query.select_eq_ok h).2.1 _ hroot⟩

/-- The base name of a type is cut off its name where the last separator ends, so it has no
separators.  The snake case of an ASCII name is its own snake case, has no capitals, and is the
name in lower case but for underscores.  A model whose base name is an identifier has a default
query over its table exactly when the snake case of the base name has at most 63 bytes, and then
that is the root alias, an identifier without capitals. -/
theorem rootAlias_of_baseName :
  (∀ s : String, ∃ p : s.Pos, (∀ offset, IsCut s offset ↔ offset = p.offset)
      ∧ baseName s = (s.sliceFrom p).copy
      ∧ ∀ separator ∈ separators, ¬ separator.toList <:+: (baseName s).toList)
    ∧ (∀ w : String, IsAscii w.toList →
      snakeCase (snakeCase w) = snakeCase w
        ∧ (∀ c ∈ (snakeCase w).toList, isUpper c = false)
        ∧ (snakeCase w).toList.filter (· != '_') = w.toLower.toList.filter (· != '_'))
    ∧ ∀ m : Model, isFieldReference m.table = true → isIdentifier (baseName m.entity) = true →
      ((∃ q, m.defaultQuery = .ok q) ↔ (snakeCase (baseName m.entity)).utf8ByteSize ≤ 63)
        ∧ ∀ q, m.defaultQuery = .ok q →
          q.rootAlias? = some (snakeCase (baseName m.entity))
            ∧ isIdentifier (snakeCase (baseName m.entity)) = true
            ∧ ∀ c ∈ (snakeCase (baseName m.entity)).toList, isUpper c = false
  := by
  refine ⟨?_, fun w => snakeCase_of_isAscii, ?_⟩
  · intro s
    obtain ⟨p, hcut, hslice⟩ := exists_baseName_eq_slice s
    exact ⟨p, hcut, hslice, baseName_noSeparator s⟩
  · intro m htable hentity
    use exists_defaultQuery_iff htable hentity
    intro q hq
    obtain ⟨hroot, hidentifier⟩ := rootAlias?_of_defaultQuery hentity hq
    refine ⟨hroot, hidentifier, ?_⟩
    have hascii := isAscii_of_isWordChar (isWordChar_of_isIdentifierText hentity)
    apply (snakeCase_of_isAscii hascii).2.1

/-- The model of posts, with two kinds of separators in its name, and a model named with forty
capitals, the snake case of which is too long. -/
theorem rootAlias_of_baseName_posts :
  ∃ posts capitals : Model, posts.entity = "app::model\\BlogPost"
    ∧ snakeCase (snakeCase "BlogPost") = "blog_post"
    ∧ (∃ q, posts.defaultQuery = .ok q ∧ q.rootAlias? = some "blog_post")
    ∧ isIdentifier capitals.entity = true ∧ ∀ q, capitals.defaultQuery ≠ .ok q
  := by
  let posts : Model := ⟨.postgres, "app::model\\BlogPost", "blog_posts", .empty⟩
  let capitals : Model := ⟨.sqlite, String.ofList (List.replicate 40 'A'), "letters", .empty⟩
  obtain ⟨-, hsnake, hmodel⟩ := rootAlias_of_baseName
  have hposts := hmodel posts (by decide) (by decide)
  have hcapitals := hmodel capitals (by decide) (by decide)
  obtain ⟨q, hq⟩ := hposts.1.mpr (by decide)
  have hascii : IsAscii "BlogPost".toList :=
    isAscii_of_isWordChar (isWordChar_of_isIdentifierText (by decide))
  refine ⟨posts, capitals, rfl, ?_, ⟨q, hq, ?_⟩, by decide, ?_⟩
  · rw [(hsnake "BlogPost" hascii).1]
    decide
  · rw [(hposts.2 q hq).1]
    decide
  · intro q hq
    have hsize := hcapitals.1.mp ⟨q, hq⟩
    revert hsize
    decide

end Model

end Shortlist
