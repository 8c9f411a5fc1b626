import Shortlist.Criteria.Document
import Shortlist.Proofs.Criteria.Accepted
import Shortlist.Proofs.Json.Reader
import Shortlist.Proofs.Toml.Reader

/-!
# Sound criteria

Criteria are read from raw options or from a document, built of a draft, or the standard ones.
Wherever they come from they are sound: the page is counted from one, no field is filtered
twice, every name in them is that of a field and every tag that of an operator.
-/

namespace Shortlist

/-- Every entry of a table to which operators were added was there before or is one of them. -/
theorem Operators.mem_insertAll {t : Operators} {ops : List (String × Operator)}
    {e : String × String} (h : e ∈ (t.insertAll ops).entries) :
  e ∈ t.entries ∨ ∃ o ∈ ops, e = (o.1, o.2.tag)
  := by
  induction ops generalizing t with
  | nil => exact .inl h
  | cons o ops ih =>
    rcases ih h with h | ⟨o', ho', he⟩
    · rcases Keyed.mem_putSorted h with he | h
      · exact .inr ⟨o, List.mem_cons_self, he⟩
      · exact .inl h
    · exact .inr ⟨o', List.mem_cons_of_mem _ ho', he⟩

/-- The objects among the members of an object with distinct names have distinct names. -/
theorem Json.nodup_keys_of_get? {members ms : List (String × Json)} {name : String}
    (distinct : Json.Reordered (.object members) (.object members))
    (h : Keyed.get? name members = some (.object ms)) :
  (Keyed.keys ms).Nodup
  := by
  have hrel := distinct.get?_rel name
  rw [h] at hrel
  cases hrel with
  | some h =>
    cases h with
    | object names _ _ => exact names

namespace Criteria

/-- Criteria come from somewhere: they are the standard ones, read from raw options in which the
members of every object have distinct names, read from a document, or built of what calls make of
the new draft. -/
inductive Produced : Criteria → Prop
  | standard : Produced .standard
  | options {r : Json} {c : Criteria} (distinct : r.Reordered r) (h : ofOptions r = .ok c) :
      Produced c
  | json {s : String} {c : Criteria} (h : ofJsonText s = .ok c) : Produced c
  | toml {s : String} {c : Criteria} (h : ofTomlText s = .ok c) : Produced c
  | draft {calls : List Draft.Call} {c : Criteria}
      (h : (Draft.new.performAll calls).build = .ok c) : Produced c

/-- The names that stand in criteria for fields: in filters, in order terms, in the grouping and
in the table of operators. -/
def fieldNames (c : Criteria) : List String :=
  c.filters.map (·.field.text) ++ c.order.map (·.field.text) ++ (c.grouping?.map (·.text)).toList
    ++ Keyed.keys c.operators.entries

/-- What holds of all criteria. -/
structure IsSound (c : Criteria) : Prop where
  page : 1 ≤ c.page.toNat
  distinct : (c.filters.map (·.field.text)).Nodup
  fields : ∀ name ∈ c.fieldNames, isFieldReference name = true
  tags : ∀ e ∈ c.operators.entries, ∃ op : Operator, e.2 = op.tag

/-- Criteria are sound when their operators were given for fields; the fields elsewhere are fields
by their type. -/
theorem isSound_of_operators {c : Criteria} {ops : List (String × Operator)}
    (page : 1 ≤ c.page.toNat) (distinct : (c.filters.map (·.field.text)).Nodup)
    (valid : ∀ field ∈ Keyed.keys ops, isFieldReference field = true)
    (operators : c.operators = .insertAll .empty ops) :
  c.IsSound
  := by
  have hentry : ∀ e ∈ c.operators.entries, ∃ o ∈ ops, e = (o.1, o.2.tag) := by
    intro e he
    rw [operators] at he
    apply (Operators.mem_insertAll he).resolve_left
    apply List.not_mem_nil
  apply IsSound.mk page distinct
  · intro name hname
    simp only [fieldNames, List.mem_append, List.mem_map, Option.mem_toList,
      Option.map_eq_some_iff, Keyed.keys] at hname
    rcases hname with ((⟨f, -, rfl⟩ | ⟨t, -, rfl⟩) | ⟨field, -, rfl⟩) | ⟨e, he, rfl⟩
    · apply f.field.valid
    · apply t.field.valid
    · apply field.valid
    · obtain ⟨o, ho, rfl⟩ := hentry e he
      apply valid
      apply List.mem_map_of_mem ho
  · intro e he
    obtain ⟨o, -, rfl⟩ := hentry e he
    use o.2

/-! ### Raw options -/

variable {members : List (String × Json)}

/-- An option has the standard value or one that its tree stands for. -/
theorem OptionIs.eq_standard_or {α : Type} {name : String} {standard a : α}
    {stands : Json → α → Prop} (h : OptionIs members name standard stands a) :
  a = standard ∨ ∃ j, Keyed.get? name members = some j ∧ stands j a
  := by
  cases h with
  | absent _ => exact .inl rfl
  | null _ => exact .inl rfl
  | given hget _ value => exact .inr ⟨_, hget, value⟩

/-- Filters have the names of the members they are read from. -/
theorem forall₂_isFilter_names {ms : List (String × Json)} {fs : List Filter}
    (h : List.Forall₂ IsFilter ms fs) :
  fs.map (·.field.text) = Keyed.keys ms
  := by
  induction h with
  | nil => rfl
  | cons hf _ ih => exact congrArg₂ List.cons hf.name.symm ih

/-- The entries of a table that is read have the names of fields. -/
theorem valid_of_forall₂_isOperatorEntry {ms : List (String × Json)}
    {ops : List (String × Operator)} (h : List.Forall₂ IsOperatorEntry ms ops) :
  ∀ field ∈ Keyed.keys ops, isFieldReference field = true
  := by
  induction h with
  | nil => exact List.forall_mem_nil _
  | cons ho _ ih =>
    intro field hfield
    rcases List.mem_cons.mp hfield with rfl | hfield
    · have hvalid := ho.valid
      rw [ho.name] at hvalid
      apply hvalid
    · apply ih field hfield

/-- Criteria that hold what options stand for are sound, when the members of every object have
distinct names. -/
theorem Holds.isSound {c : Criteria} (h : Holds members c)
    (distinct : Json.Reordered (.object members) (.object members)) :
  c.IsSound
  := by
  obtain ⟨ops, valid, operators⟩ : ∃ ops : List (String × Operator),
      (∀ field ∈ Keyed.keys ops, isFieldReference field = true)
        ∧ c.operators = .insertAll .empty ops := by
    rcases h.operators.eq_standard_or with hempty | ⟨_, -, ⟨ms, ops, -, hops, htable⟩ | ⟨-, hempty⟩⟩
    · exact ⟨[], List.forall_mem_nil _, hempty⟩
    · exact ⟨ops, valid_of_forall₂_isOperatorEntry hops, (Operators.isTableOf_iff ..).mp htable⟩
    · exact ⟨[], List.forall_mem_nil _, hempty⟩
  apply isSound_of_operators _ _ valid operators
  · rcases h.page.eq_standard_or with hpage | ⟨_, -, -, hpage⟩
    · rw [hpage]
      decide
    · apply hpage
  · rcases h.filters.eq_standard_or with hnone | ⟨_, hget, ⟨ms, rfl, hfilters⟩ | ⟨-, hnone⟩⟩
    · rw [hnone]
      apply List.nodup_nil
    · rw [forall₂_isFilter_names hfilters]
      apply Json.nodup_keys_of_get? distinct hget
    · rw [hnone]
      apply List.nodup_nil

/-- Criteria that are read from raw options are sound. -/
theorem isSound_of_ofOptions {r : Json} {c : Criteria} (distinct : r.Reordered r)
    (h : ofOptions r = .ok c) :
  c.IsSound
  := by
  obtain ⟨_, ⟨⟩, holds⟩ := (ofOptions_eq_ok_iff_holds r c).mp h
  · apply holds.isSound (.object List.nodup_nil .nil .nil)
  · apply holds.isSound distinct

/-! ### Drafts -/

/-- Criteria that are built of a draft are sound. -/
theorem isSound_of_build {calls : List Draft.Call} {c : Criteria}
    (h : (Draft.new.performAll calls).build = .ok c) :
  c.IsSound
  := by
  rw [Draft.performAll_new] at h
  obtain ⟨-, ⟨hzero, hpage⟩, -, hfilters, ⟨valid, operators⟩, -, -⟩ :=
    (Draft.build_eq_ok_iff ..).mp h
  apply isSound_of_operators _ _ valid operators
  · rw [hpage, Nat.one_le_iff_ne_zero, ne_eq, ← UInt32.toNat_zero, UInt32.toNat_inj]
    apply hzero
  · have hnames : c.filters.map (·.field.text) = Keyed.keys (Draft.ofCalls calls).filters := by
      rw [hfilters, Keyed.keys, List.map_map]
      rfl
    rw [hnames, Draft.ofCalls, ← Keyed.putAll_eq_latest]
    apply Keyed.nodup_keys_putAll

/-! ### All sources -/

/-- Criteria are sound wherever they come from. -/
theorem Produced.isSound {c : Criteria} (h : c.Produced) :
  c.IsSound
  := by
  cases h with
  | standard =>
    apply isSound_of_ofOptions .null
    rfl
  | options distinct h => exact isSound_of_ofOptions distinct h
  | @json s c h =>
    rw [ofJsonText, Json.parse] at h
    split at h
    · apply isSound_of_ofOptions (Json.reordered_of_read? ‹_›) h
    · cases h
  | @toml s c h =>
    rw [ofTomlText, Toml.parse] at h
    split at h
    · apply isSound_of_ofOptions (Toml.reordered_of_read? ‹_›) h
    · cases h
  | draft h => exact isSound_of_build h

end Criteria

end Shortlist
