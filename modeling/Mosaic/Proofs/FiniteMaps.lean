import Mathlib.Data.Finmap
import Mathlib.Data.String.Basic
import Mosaic.Proofs.Registers

/-!
# Registers as finite maps

A register is the finite map of its entries (`Register.toMap`), listed in the order of the code points of
the ids (`Register.Lists`). Recording, removing and merging answer as this map does and lead to the
register of the map that results, after any number of changes (`Register.run_toMap`). To merge is to
insert the other entries in any order; it is associative, and to merge again adds nothing.
-/

namespace Mosaic

abbrev FiniteMap (α : Type) := Finmap fun _ : String => α

/-- A change of a register, or of the finite map that it is. -/
inductive Change (α : Type)
  | record (id : String) (a : α)
  | remove (id : String)
  | merge (other : Register α)

inductive Change.Reply (α : Type)
  /-- Whether there was no entry for the id. -/
  | recorded (new : Bool)
  | removed (old : Option α)
  | merged
deriving DecidableEq

/-- The replies to changes in order, and the state after them. -/
def Change.run {α σ : Type} (change : σ → Change α → Reply α × σ) : σ → List (Change α) → List (Reply α) × σ
  | s, [] => ([], s)
  | s, c :: rest =>
    let (reply, s) := change s c
    let (replies, s) := run change s rest
    (reply :: replies, s)

def codePoints (id : String) : List Nat := id.toList.map Char.toNat

theorem codePoints_lt {a b : String} (h : a < b) : codePoints a < codePoints b :=
  List.map_lt (fun _ _ hlt => hlt) (String.lt_iff_toList_lt.mp h)

namespace Register

variable {α : Type} {r other third : Register α} {id id' : String} {a b : α}

def change (r : Register α) : Change α → Change.Reply α × Register α
  | .record id a => let (new, r) := r.record id a; (.recorded new, r)
  | .remove id => let (old, r) := r.remove id; (.removed old, r)
  | .merge other => (.merged, r.merge other)

/-- The finite map of the entries. -/
def toMap (r : Register α) : FiniteMap α := (r.entries.map fun e => (⟨e.1, e.2⟩ : Sigma fun _ => α)).toFinmap

end Register

namespace FiniteMap

variable {α : Type} {m m' : FiniteMap α}

/-- What is recorded for an id that has a value is lost, and where two maps have a value that of `m` counts. -/
def change (m : FiniteMap α) : Change α → Change.Reply α × FiniteMap α
  | .record id a => if id ∈ m then (.recorded false, m) else (.recorded true, m.insert id a)
  | .remove id => (.removed (m.lookup id), m.erase id)
  | .merge other => (.merged, m ∪ other.toMap)

theorem lookup_union (id : String) : (m ∪ m').lookup id = (m.lookup id).or (m'.lookup id) := by
  by_cases h : id ∈ m
  · obtain ⟨a, ha⟩ := Finmap.mem_iff.mp h
    rw [Finmap.lookup_union_left h, ha, Option.some_or]
  · rw [Finmap.lookup_union_right h, Finmap.lookup_eq_none.mpr h, Option.none_or]

end FiniteMap

namespace Register

variable {α : Type} {r other third : Register α} {id id' : String} {a b : α}

/-! ### The map of a register -/

@[simp] theorem lookup_toMap : r.toMap.lookup id = r.get? id := by
  rw [toMap, Finmap.dlookup_list_toFinmap, get?]
  induction r.entries with
  | nil => rfl
  | cons e rest ih =>
    obtain ⟨k, b⟩ := e
    by_cases hid : k = id
    · subst hid
      simp
    · simpa [hid, List.dlookup_cons_ne, Ne.symm hid] using ih

theorem mem_toMap : id ∈ r.toMap ↔ r.contains id = true := by
  rw [← Finmap.lookup_isSome, lookup_toMap, contains]

theorem mem_ids : id ∈ r.ids ↔ ∃ a, r.get? id = some a := by
  simp [ids, ← mem_entries_iff]

theorem nodup_ids : r.ids.Nodup := (List.pairwise_map.mpr r.ascending).imp ne_of_lt

/-- The register lists the finite map: each id once, in the order of the code points, and what is looked up is what
is listed. -/
structure Lists (r : Register α) (m : FiniteMap α) : Prop where
  ascending : r.entries.Pairwise fun e d => codePoints e.1 < codePoints d.1
  once : r.ids.Nodup
  mem_entries : ∀ id a, (id, a) ∈ r.entries ↔ m.lookup id = some a
  get?_eq : ∀ id, r.get? id = m.lookup id
  contains_iff : ∀ id, r.contains id = true ↔ id ∈ r.ids
  size_eq : r.size = m.keys.card

theorem keys_toMap : r.toMap.keys = r.ids.toFinset := by
  ext id
  rw [Finmap.mem_keys, Finmap.mem_iff, List.mem_toFinset, mem_ids]
  simp only [lookup_toMap]

theorem lists_toMap (r : Register α) : r.Lists r.toMap where
  ascending := r.ascending.imp codePoints_lt
  once := r.nodup_ids
  mem_entries id a := by rw [mem_entries_iff, lookup_toMap]
  get?_eq id := lookup_toMap.symm
  contains_iff id := by rw [contains, Option.isSome_iff_exists, mem_ids]
  size_eq := by rw [keys_toMap, List.toFinset_card_of_nodup r.nodup_ids, ids, List.length_map, size]

/-! ### Changes -/

theorem toMap_insert_of_mem (h : id ∈ r.toMap) : (r.insert id a).toMap = r.toMap := by
  refine Finmap.ext_lookup fun id' => ?_
  obtain ⟨b, hb⟩ := Finmap.mem_iff.mp h
  rw [lookup_toMap] at hb
  rw [lookup_toMap, lookup_toMap, get?_insert]
  split
  · rename_i hid
    rw [hid, hb, Option.getD_some]
  · rfl

theorem toMap_insert_of_notMem (h : id ∉ r.toMap) : (r.insert id a).toMap = r.toMap.insert id a := by
  refine Finmap.ext_lookup fun id' => ?_
  have hnone := Finmap.lookup_eq_none.mpr h
  rw [lookup_toMap] at hnone
  rw [lookup_toMap, get?_insert]
  split
  · rename_i hid
    rw [hid, hnone, Option.getD_none, Finmap.lookup_insert]
  · rename_i hid
    rw [Finmap.lookup_insert_of_ne _ hid, lookup_toMap]

theorem toMap_erase : (r.erase id).toMap = r.toMap.erase id := by
  refine Finmap.ext_lookup fun id' => ?_
  rw [lookup_toMap, get?_erase]
  by_cases hid : id' = id
  · rw [if_pos hid, hid, Finmap.lookup_erase]
  · rw [if_neg hid, Finmap.lookup_erase_ne hid, lookup_toMap]

theorem toMap_merge : (r.merge other).toMap = r.toMap ∪ other.toMap := by
  refine Finmap.ext_lookup fun id => ?_
  rw [FiniteMap.lookup_union, lookup_toMap, lookup_toMap, lookup_toMap, get?_merge]

/-- One change is answered as by the map, and what comes of it is the map changed. -/
theorem change_toMap (r : Register α) (c : Change α) :
    FiniteMap.change r.toMap c = ((r.change c).1, (r.change c).2.toMap) := by
  cases c with
  | record id a =>
    simp only [change, record, FiniteMap.change]
    by_cases h : id ∈ r.toMap
    · rw [if_pos h, toMap_insert_of_mem h, mem_toMap.mp h]
      rfl
    · rw [if_neg h, toMap_insert_of_notMem h, Bool.eq_false_iff.mpr (mt mem_toMap.mpr h)]
      rfl
  | remove id =>
    simp only [change, remove, FiniteMap.change]
    rw [toMap_erase, lookup_toMap]
  | merge other =>
    simp only [change, FiniteMap.change]
    rw [toMap_merge]

theorem run_toMap (r : Register α) (changes : List (Change α)) :
    Change.run FiniteMap.change r.toMap changes =
      ((Change.run change r changes).1, (Change.run change r changes).2.toMap) := by
  induction changes generalizing r with
  | nil => rfl
  | cons c rest ih => simp only [Change.run, change_toMap, ih]

/-! ### Merging -/

theorem insert_comm (h : id ≠ id') : (r.insert id a).insert id' b = (r.insert id' b).insert id a := by
  refine ext_get? fun k => ?_
  simp only [get?_insert]
  by_cases hk : k = id
  · subst hk
    simp [h]
  · simp [hk, Ne.symm h]

/-- Entries with different ids can be inserted in any order. -/
theorem foldl_insert_perm {entries : List (String × α)} (h : entries.Perm other.entries) :
    entries.foldl (fun r e => r.insert e.1 e.2) r = r.merge other := by
  refine h.foldl_eq' (fun e he d hd s => ?_) r
  by_cases hid : e.1 = d.1
  · rw [List.inj_on_of_nodup_map other.nodup_ids (h.subset he) (h.subset hd) hid]
  · exact insert_comm hid

theorem merge_assoc : (r.merge other).merge third = r.merge (other.merge third) :=
  ext_get? fun id => by simp only [get?_merge, Option.or_assoc]

theorem merge_self : r.merge r = r := ext_get? fun id => by rw [get?_merge, Option.or_self]

theorem mem_merge_of_mem (h : (id, a) ∈ r.entries) : (id, a) ∈ (r.merge other).entries := by
  rw [mem_entries_iff] at h ⊢
  rw [get?_merge, h, Option.some_or]

/-- Whatever is recorded, removed and merged, from any register on, the replies are those of the finite map that
the register was, and it lists the finite map that comes of this one. Merging another register into it is inserting
the entries of this in any order, keeps every entry, is associative, and adds nothing when done once more. -/
theorem first_wins_map (r : Register α) (changes : List (Change α)) :
    let (replies, after) := Change.run change r changes
    let (expected, map) := Change.run FiniteMap.change r.toMap changes
    replies = expected ∧ after.Lists map ∧ ∀ other : Register α,
      (∀ entries : List (String × α), entries.Perm other.entries →
        entries.foldl (fun r e => (r.record e.1 e.2).2) after = after.merge other) ∧
      (∀ third, (after.merge other).merge third = after.merge (other.merge third)) ∧
      after.merge after = after ∧ (after.merge other).merge other = after.merge other ∧
      ∀ id a, (id, a) ∈ after.entries → (id, a) ∈ (after.merge other).entries := by
  rw [run_toMap]
  refine ⟨rfl, lists_toMap _, fun other => ⟨fun entries => foldl_insert_perm, fun third => merge_assoc, merge_self, ?_,
    fun id a => mem_merge_of_mem⟩⟩
  rw [merge_assoc, merge_self]

/-- An entry that is there refuses another value, from a change and from a merger, until it is removed. -/
theorem first_wins_map_refusals :
    let start : Register Nat := empty.insert "b" 2
    let other : Register Nat := (empty.insert "c" 7).insert "a" 5
    let entries := [("c", 7), ("a", 5)]
    let (replies, after) := Change.run change start [.record "a" 1, .record "b" 9, .merge other, .remove "b"]
    replies = [.recorded true, .recorded false, .merged, .removed (some 2)] ∧
      after.entries = [("a", 1), ("c", 7)] ∧ entries.Perm other.entries ∧
      entries.foldl (fun r e => (r.record e.1 e.2).2) after = after.merge other ∧
      ("a", 1) ∈ (after.merge other).entries := by
  intro start other entries
  obtain ⟨-, -, hmerge⟩ := first_wins_map start [.record "a" 1, .record "b" 9, .merge other, .remove "b"]
  obtain ⟨hperm, -, -, -, hkeeps⟩ := hmerge other
  have hentries : entries.Perm other.entries := by decide +kernel
  exact ⟨by decide +kernel, by decide +kernel, hentries, hperm entries hentries, hkeeps "a" 1 (by decide +kernel)⟩

end Register
end Mosaic
