import Shortlist.Proofs.Json.Reordered
import Shortlist.Toml.Reader

/-!
# Trees of TOML documents

Every table of a document has its keys in ascending order, whether it was made by headers, by
dotted keys or between braces, and so the members of every object that was read have distinct
names.
-/

namespace Shortlist.Toml

open Json (Reordered ItemsReordered ValuesReordered)

mutual

/-- The tables in an entry have their keys in ascending order, and the objects in its values
have members with distinct names. -/
inductive OrderedEntry : Entry → Prop
  | value {j : Json} (distinct : j.Reordered j) : OrderedEntry (.value j)
  | table (origin : Origin) {t : Members} (h : OrderedTable t) : OrderedEntry (.table origin t)
  | tables {earlier : List Members} {last : Members} (before : ∀ t ∈ earlier, OrderedTable t)
      (h : OrderedTable last) : OrderedEntry (.tables earlier last)

/-- The keys of a table are in ascending order, and so are those of the tables in it. -/
inductive OrderedTable : Members → Prop
  | mk {t : Members} (sorted : Keyed.Sorted t) (entries : ∀ e ∈ t, OrderedEntry e.2) :
      OrderedTable t

end

/-- The table of an ordered entry is ordered. -/
theorem OrderedEntry.of_table {origin : Origin} {t : Members}
    (h : OrderedEntry (.table origin t)) :
  OrderedTable t
  := by
  cases h with
  | table _ h => exact h

/-- In an array of tables every table is ordered, the one that is still open too. -/
theorem OrderedEntry.of_tables {earlier : List Members} {last : Members}
    (h : OrderedEntry (.tables earlier last)) :
  (∀ t ∈ earlier, OrderedTable t) ∧ OrderedTable last
  := by
  cases h with
  | tables before h => exact ⟨before, h⟩

/-! ### Trees of tables -/

/-- The members of an object have the keys of the table they come from. -/
theorem keys_membersToJson (t : Members) :
  Keyed.keys (membersToJson t) = Keyed.keys t
  := by
  induction t with
  | nil =>
    rw [membersToJson]
    rfl
  | cons e t ih =>
    rw [membersToJson]
    exact congrArg (e.1 :: ·) ih

/-- The object of a table with keys in order has distinct names everywhere when its values have. -/
theorem reordered_object {t : Members} (sorted : Keyed.Sorted t)
    (values : ValuesReordered (membersToJson t) (membersToJson t)) :
  Reordered (.object (membersToJson t)) (.object (membersToJson t))
  := by
  apply Reordered.object _ values .rfl
  rw [keys_membersToJson]
  apply sorted.nodup_keys

mutual

/-- The tree of an ordered entry has distinct names in every object. -/
theorem reordered_toJson {e : Entry} (h : OrderedEntry e) :
  e.toJson.Reordered e.toJson
  := by
  cases e with
  | value j =>
    obtain ⟨distinct⟩ := h
    rw [Entry.toJson]
    apply distinct
  | table origin t =>
    obtain ⟨sorted, entries⟩ := h.of_table
    rw [Entry.toJson]
    apply reordered_object sorted (valuesReordered_membersToJson entries)
  | tables earlier last =>
    obtain ⟨before, sorted, entries⟩ := h.of_tables
    rw [Entry.toJson]
    apply Reordered.array
    apply itemsReordered_tablesToJson before
    apply ItemsReordered.cons _ .nil
    apply reordered_object sorted (valuesReordered_membersToJson entries)

/-- The values of ordered entries have distinct names in every object. -/
theorem valuesReordered_membersToJson {t : Members} (h : ∀ e ∈ t, OrderedEntry e.2) :
  ValuesReordered (membersToJson t) (membersToJson t)
  := by
  cases t with
  | nil =>
    rw [membersToJson]
    apply ValuesReordered.nil
  | cons e t =>
    obtain ⟨key, e⟩ := e
    obtain ⟨he, ht⟩ := List.forall_mem_cons.mp h
    rw [membersToJson]
    apply ValuesReordered.cons key (reordered_toJson he) (valuesReordered_membersToJson ht)

/-- Ordered tables in front of such items are such items. -/
theorem itemsReordered_tablesToJson {ts : List Members} {js : List Json}
    (h : ∀ t ∈ ts, OrderedTable t) (hjs : ItemsReordered js js) :
  ItemsReordered (tablesToJson ts ++ js) (tablesToJson ts ++ js)
  := by
  cases ts with
  | nil =>
    rw [tablesToJson]
    apply hjs
  | cons t ts =>
    obtain ⟨⟨sorted, entries⟩, hts⟩ := List.forall_mem_cons.mp h
    rw [tablesToJson]
    apply ItemsReordered.cons _ (itemsReordered_tablesToJson hts hjs)
    apply reordered_object sorted (valuesReordered_membersToJson entries)

end

/-! ### Headers and assignments -/

namespace OrderedTable

variable {t t' : Members}

/-- The tree of an ordered table has distinct names in every object. -/
theorem reordered (h : OrderedTable t) :
  Reordered (.object (membersToJson t)) (.object (membersToJson t))
  := by
  obtain ⟨sorted, entries⟩ := h
  apply reordered_object sorted (valuesReordered_membersToJson entries)

theorem nil :
  OrderedTable []
  := .mk List.Pairwise.nil (List.forall_mem_nil _)

/-- Putting an ordered entry into an ordered table leaves it ordered. -/
theorem putSorted (h : OrderedTable t) (key : String) {e : Entry} (he : OrderedEntry e) :
  OrderedTable (Keyed.putSorted key e t)
  := by
  obtain ⟨sorted, entries⟩ := h
  apply OrderedTable.mk (sorted.putSorted key e)
  intro e' he'
  rcases Keyed.mem_putSorted he' with rfl | he'
  · apply he
  · apply entries e' he'

/-- What is found in an ordered table is ordered. -/
theorem get? (h : OrderedTable t) {key : String} {e : Entry} (he : Keyed.get? key t = some e) :
  OrderedEntry e
  := by
  obtain ⟨sorted, entries⟩ := h
  apply entries (key, e)
  apply (Keyed.get?_eq_some_iff sorted.nodup_keys key e).mp he

/-- A table in which a table below a key was changed. -/
theorem of_map {α : Type} {x : Option α} {wrap : α → Entry} {key : String} (h : OrderedTable t)
    (changed : ∀ a, x = some a → OrderedEntry (wrap a))
    (ht' : x.map (fun a => Keyed.putSorted key (wrap a) t) = some t') :
  OrderedTable t'
  := by
  obtain ⟨a, ha, rfl⟩ := Option.map_eq_some_iff.mp ht'
  apply h.putSorted key (changed a ha)

/-- An assignment of a value with distinct names, under any dotted key, leaves a table ordered. -/
theorem assign {key : String} {j : Json} (distinct : j.Reordered j) {path : List String}
    (h : OrderedTable t) (ht' : Members.assign key j path t = some t') :
  OrderedTable t'
  := by
  induction path generalizing t t' with
  | nil =>
    rw [Members.assign] at ht'
    split at ht' <;> cases ht'
    apply h.putSorted key (.value distinct)
  | cons k ks ih =>
    rw [Members.assign] at ht'
    split at ht'
    · apply h.of_map _ ht'
      intro sub hsub
      apply OrderedEntry.table _ (ih .nil hsub)
    · rename_i hget
      have hold := (h.get? hget).of_table
      apply h.of_map _ ht'
      intro sub hsub
      apply OrderedEntry.table _ (ih hold hsub)
    · rename_i hget
      have hold := (h.get? hget).of_table
      split at ht'
      · cases ht'
      · apply h.of_map _ ht'
        intro sub hsub
        apply OrderedEntry.table _ (ih hold hsub)
    · cases ht'
    · rename_i hget
      obtain ⟨before, hold⟩ := (h.get? hget).of_tables
      split at ht'
      · cases ht'
      · apply h.of_map _ ht'
        intro last hlast
        apply OrderedEntry.tables before (ih hold hlast)
    · cases ht'

/-- What a change of the entry of a header leaves ordered, the change of the document does. -/
theorem atHeader {change : Option Entry → Option Entry}
    (changed : ∀ o e, (∀ e' ∈ o, OrderedEntry e') → change o = some e → OrderedEntry e)
    {path : List String} (h : OrderedTable t) (ht' : Members.atHeader change path t = some t') :
  OrderedTable t'
  := by
  induction path generalizing t t' with
  | nil => cases ht'
  | cons k ks ih =>
    cases ks with
    | nil =>
      rw [Members.atHeader] at ht'
      apply h.of_map _ ht'
      intro e he
      apply changed _ e _ he
      intro e' he'
      apply h.get? he'
    | cons k' ks =>
      rw [Members.atHeader] at ht'
      · split at ht'
        · apply h.of_map _ ht'
          intro sub hsub
          apply OrderedEntry.table _ (ih .nil hsub)
        · rename_i hget
          have hold := (h.get? hget).of_table
          apply h.of_map _ ht'
          intro sub hsub
          apply OrderedEntry.table _ (ih hold hsub)
        · rename_i hget
          obtain ⟨before, hold⟩ := (h.get? hget).of_tables
          apply h.of_map _ ht'
          intro last hlast
          apply OrderedEntry.tables before (ih hold hlast)
        · cases ht'
      · rintro ⟨⟩

/-- A header of a table leaves a table ordered. -/
theorem openTable {path : List String} (h : OrderedTable t)
    (ht' : Members.openTable path t = some t') :
  OrderedTable t'
  := by
  apply h.atHeader _ ht'
  intro o e ho he
  split at he <;> cases he
  · apply OrderedEntry.table _ .nil
  · apply OrderedEntry.table _ (ho _ rfl).of_table

/-- A header of an array of tables leaves a table ordered. -/
theorem openElement {path : List String} (h : OrderedTable t)
    (ht' : Members.openElement path t = some t') :
  OrderedTable t'
  := by
  apply h.atHeader _ ht'
  intro o e ho he
  split at he <;> cases he
  · apply OrderedEntry.tables (List.forall_mem_nil _) .nil
  · obtain ⟨before, hlast⟩ := (ho _ rfl).of_tables
    apply OrderedEntry.tables _ .nil
    rw [List.forall_mem_append, List.forall_mem_singleton]
    exact ⟨before, hlast⟩

/-- An assignment below a header leaves a table ordered. -/
theorem assignUnder {header path : List String} {key : String} {j : Json}
    (distinct : j.Reordered j) (h : OrderedTable t)
    (ht' : Members.assignUnder header path key j t = some t') :
  OrderedTable t'
  := by
  rw [Members.assignUnder] at ht'
  split at ht'
  · apply h.assign distinct ht'
  · apply h.atHeader _ ht'
    intro o e ho he
    split at he
    · obtain ⟨sub, hsub, rfl⟩ := Option.map_eq_some_iff.mp he
      apply OrderedEntry.table _ ((ho _ rfl).of_table.assign distinct hsub)
    · obtain ⟨last, hlast, rfl⟩ := Option.map_eq_some_iff.mp he
      obtain ⟨before, hold⟩ := (ho _ rfl).of_tables
      apply OrderedEntry.tables before (hold.assign distinct hlast)
    · cases he

end OrderedTable

/-! ### The reader -/

theorem reordered_of_scalar? {cs : List Char} {j : Json} (h : scalar? cs = some j) :
  j.Reordered j
  := by
  rw [scalar?] at h
  split at h
  · cases h
    apply Reordered.bool
  · split at h
    · cases h
      apply Reordered.bool
    · split at h
      · cases h
        apply Reordered.null
      · split at h
        · cases h
          apply Reordered.object _ (.cons _ (.string _) .nil) .rfl
          apply List.nodup_singleton
        · split at h
          · split at h <;> cases h
            apply Reordered.number
          · split at h
            · cases h
            · split at h <;> cases h
              apply Reordered.number

/-- What is read in at most so many calls has distinct names, the members of an inline table as
long as those already read are ordered. -/
structure ReadsOrdered (fuel : Nat) : Prop where
  value : ∀ {depth cs j rest}, readValue? fuel depth cs = some (j, rest) → j.Reordered j
  items : ∀ {depth cs js rest}, readItems? fuel depth cs = some (js, rest) → ItemsReordered js js
  members : ∀ {depth t cs t' rest}, readMembers? fuel depth t cs = some (t', rest) →
    OrderedTable t → OrderedTable t'

namespace ReadsOrdered

variable {fuel depth : Nat} {cs rest : List Char}

/-- A value is read with distinct names when all that is read with less fuel is. -/
theorem value_succ (ih : ReadsOrdered fuel) {j : Json}
    (h : readValue? (fuel + 1) depth cs = some (j, rest)) :
  j.Reordered j
  := by
  rw [readValue?.eq_def] at h
  dsimp only at h
  split at h
  · split at h
    · cases h
    · obtain ⟨_, hitems, hj⟩ := Option.map_eq_some_iff.mp h
      cases hj
      apply Reordered.array (ih.items hitems)
  · split at h
    · cases h
    · obtain ⟨_, hmembers, hj⟩ := Option.map_eq_some_iff.mp h
      cases hj
      apply (ih.members hmembers .nil).reordered
  · obtain ⟨_, -, hj⟩ := Option.map_eq_some_iff.mp h
    cases hj
    apply Reordered.string
  · obtain ⟨_, -, hj⟩ := Option.map_eq_some_iff.mp h
    cases hj
    apply Reordered.string
  · obtain ⟨_, hscalar, hj⟩ := Option.map_eq_some_iff.mp h
    cases hj
    apply reordered_of_scalar? hscalar

/-- The items of an array are read with distinct names when all that is read with less fuel is. -/
theorem items_succ (ih : ReadsOrdered fuel) {js : List Json}
    (h : readItems? (fuel + 1) depth cs = some (js, rest)) :
  ItemsReordered js js
  := by
  rw [readItems?] at h
  split at h
  · cases h
  · cases h
    apply ItemsReordered.nil
  · split at h
    · cases h
    · split at h
      · obtain ⟨_, hitems, hjs⟩ := Option.map_eq_some_iff.mp h
        cases hjs
        exact .cons (ih.value ‹_›) (ih.items hitems)
      · cases h
        exact .cons (ih.value ‹_›) .nil
      · cases h

/-- The members between braces leave a table ordered when all that is read with less fuel is. -/
theorem members_succ (ih : ReadsOrdered fuel) {t t' : Members}
    (h : readMembers? (fuel + 1) depth t cs = some (t', rest)) (ordered : OrderedTable t) :
  OrderedTable t'
  := by
  rw [readMembers?] at h
  split at h
  · cases h
  · cases h
    apply ordered
  · split at h
    · cases h
    · split at h
      · cases h
      · split at h
        · cases h
        · -- the member just read is assigned before the reader goes on or stops
          have hassigned := ordered.assign (ih.value ‹_›) ‹_›
          split at h
          · apply ih.members h hassigned
          · cases h
            apply hassigned
          · cases h

end ReadsOrdered

theorem readsOrdered (fuel : Nat) :
  ReadsOrdered fuel
  := by
  induction fuel with
  | zero =>
    constructor
    · intro _ _ _ _ h
      cases h
    · intro _ _ _ _ h
      cases h
    · intro _ _ _ _ _ h
      cases h
  | succ fuel ih => exact ⟨ih.value_succ, ih.items_succ, ih.members_succ⟩

/-- The value that a line assigns has distinct names. -/
theorem reordered_of_readLine? {cs rest : List Char} {path : List String} {key : String} {j : Json}
    (h : readLine? cs = some (.assign path key j, rest)) :
  j.Reordered j
  := by
  rw [readLine?.eq_def] at h
  split at h
  · split at h <;> cases h
  · split at h <;> cases h
  · split at h
    · obtain ⟨_, hvalue, hj⟩ := Option.map_eq_some_iff.mp h
      cases hj
      apply (readsOrdered _).value hvalue
    · cases h

/-- The lines of a document leave a table ordered, under whatever header they stand. -/
theorem OrderedTable.readLines? {fuel : Nat} {header : List String} {t t' : Members}
    {cs : List Char} (ordered : OrderedTable t)
    (h : Toml.readLines? fuel header t cs = some t') :
  OrderedTable t'
  := by
  induction fuel generalizing header t cs with
  | zero => cases h
  | succ fuel ih =>
    rw [Toml.readLines?] at h
    split at h
    · cases h
    · cases h
      apply ordered
    · split at h
      · cases h
      · split at h
        · cases h
        · split at h
          · obtain ⟨_, hopen, h⟩ := Option.bind_eq_some_iff.mp h
            apply ih (ordered.openTable hopen) h
          · obtain ⟨_, hopen, h⟩ := Option.bind_eq_some_iff.mp h
            apply ih (ordered.openElement hopen) h
          · obtain ⟨_, hassign, h⟩ := Option.bind_eq_some_iff.mp h
            apply ih (ordered.assignUnder (reordered_of_readLine? ‹_›) hassign) h

/-- The members of every object of a document have distinct names. -/
theorem reordered_of_read? {s : String} {j : Json} (h : read? s = some j) :
  j.Reordered j
  := by
  rw [read?] at h
  obtain ⟨t, ht, rfl⟩ := Option.map_eq_some_iff.mp h
  apply (OrderedTable.nil.readLines? ht).reordered

end Shortlist.Toml
