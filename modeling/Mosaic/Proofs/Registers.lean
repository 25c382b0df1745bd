import Mathlib.Data.List.Sort
import Mosaic.Register

/-!
# Looking up entries of a register

A register reads as a finite map: what `Register.get?` finds after `insert`, `erase` and `merge` is given
by what it found before, and registers that find the same are equal. An insertion never changes what an id
already had.
-/

namespace Mosaic
namespace Register

variable {α : Type} {r : Register α} {id id' : String} {a b : α}

/-- In ascending order, an id that comes before the first entry has none. -/
theorem find?_of_lt {k : String} {l : List (String × α)}
    (h : ((k, b) :: l).Pairwise fun a b => a.1 < b.1) (hlt : id < k) :
    ((k, b) :: l).find? (·.1 = id) = none := by
  rw [List.find?_eq_none]
  intro e he hid
  have hk : k ≤ e.1 := by
    rcases List.mem_cons.mp he with rfl | he
    · exact Std.le_refl _
    · exact Std.le_of_lt ((List.pairwise_cons.mp h).1 e he)
  have heq : e.1 = id := of_decide_eq_true hid
  exact String.not_lt.mpr (heq ▸ hk) hlt

theorem mem_entries_iff : (id, a) ∈ r.entries ↔ r.get? id = some a := by
  rw [get?, Option.map_eq_some_iff]
  constructor
  · intro hmem
    refine ⟨(id, a), ?_, rfl⟩
    obtain ⟨before, after, hsplit⟩ := List.append_of_mem hmem
    have hasc := hsplit ▸ r.ascending
    rw [hsplit, List.find?_append]
    have hnone : before.find? (·.1 = id) = none := List.find?_eq_none.mpr fun e he hid => by
      have hlt := (List.pairwise_append.mp hasc).2.2 e he (id, a) (List.mem_cons_self ..)
      exact String.lt_irrefl id (of_decide_eq_true hid ▸ hlt)
    rw [hnone]
    simp
  · rintro ⟨⟨k, b⟩, hfind, rfl⟩
    have hk : k = id := by simpa using List.find?_some hfind
    exact hk ▸ List.mem_of_find?_eq_some hfind

theorem find?_insertEntry (join : α → α) (id id' : String) (a : α) {l : List (String × α)}
    (h : l.Pairwise fun a b => a.1 < b.1) :
    ((insertEntry join id a l).find? (·.1 = id')).map (·.2) =
      if id' = id then some (((l.find? (·.1 = id)).map fun e => join e.2).getD a)
      else (l.find? (·.1 = id')).map (·.2) := by
  induction l with
  | nil => by_cases hid : id' = id <;> simp [insertEntry, hid, Ne.symm]
  | cons e rest ih =>
    obtain ⟨k, b⟩ := e
    rw [insertEntry]
    split
    · rename_i hlt
      rw [find?_of_lt h hlt]
      by_cases hid : id' = id
      · simp [hid]
      · simp [hid, Ne.symm hid]
    · split
      · rename_i hk
        subst hk
        by_cases hid : id' = id
        · simp [hid]
        · simp [hid, Ne.symm hid]
      · rename_i hk
        by_cases hid' : k = id'
        · subst hid'
          simp [Ne.symm hk]
        · have hrest := ih (List.pairwise_cons.mp h).2
          simpa [hid', Ne.symm hk] using hrest

/-- An insertion gives an id that has no entry one, and changes nothing else. -/
theorem get?_insert :
    (r.insert id a).get? id' = if id' = id then some ((r.get? id).getD a) else r.get? id' := by
  have key := find?_insertEntry (fun b => b) id id' a r.ascending
  simpa only [get?, insert] using key

theorem get?_insert_of_none (h : r.get? id = none) : (r.insert id a).get? id = some a := by
  rw [get?_insert, if_pos rfl, h]; rfl

theorem get?_insert_of_some (h : r.get? id' = some b) : (r.insert id a).get? id' = some b := by
  rw [get?_insert]
  split <;> rename_i hid
  · rw [← hid, h]; rfl
  · exact h

theorem length_insertEntry {join : α → α} {l : List (String × α)} (h : ∀ e ∈ l, e.1 ≠ id) :
    (insertEntry join id a l).length = l.length + 1 := by
  induction l with
  | nil => rfl
  | cons e rest ih =>
    obtain ⟨hk, hrest⟩ := List.forall_mem_cons.mp h
    rw [insertEntry, if_neg (Ne.symm hk)]
    split
    · rfl
    · exact congrArg (· + 1) (ih hrest)

theorem size_insert_of_none (h : r.get? id = none) : (r.insert id a).size = r.size + 1 := by
  rw [get?, Option.map_eq_none_iff, List.find?_eq_none] at h
  exact length_insertEntry fun e he hid => h e he (decide_eq_true hid)

theorem get?_replace :
    (r.replace id a).get? id' = if id' = id then some a else r.get? id' := by
  have key := find?_insertEntry (fun _ => a) id id' a r.ascending
  rw [get?, replace, key]
  cases r.entries.find? (·.1 = id) <;> rfl

theorem get?_erase : (r.erase id).get? id' = if id' = id then none else r.get? id' := by
  simp only [get?, erase, List.find?_filter]
  split <;> rename_i hid
  · subst hid
    simp
  · congr 1
    congr 1
    funext e
    by_cases he : e.1 = id' <;> simp [he, hid]

/-- Of several entries with one id, the first of a list counts, unless the register has one before. -/
theorem get?_foldl_insert {l : List (String × α)} :
    (l.foldl (fun r e => r.insert e.1 e.2) r).get? id =
      (r.get? id).or ((l.find? (·.1 = id)).map (·.2)) := by
  induction l generalizing r with
  | nil => simp
  | cons e rest ih =>
    rw [List.foldl_cons, ih, get?_insert, List.find?_cons]
    by_cases hid : id = e.1
    · subst hid
      cases r.get? e.1 <;> simp
    · simp [hid, Ne.symm hid]

theorem get?_merge {other : Register α} :
    (r.merge other).get? id = (r.get? id).or (other.get? id) := get?_foldl_insert

theorem ext_get? {other : Register α} (h : ∀ id, r.get? id = other.get? id) : r = other := by
  have hirrefl : Std.Irrefl fun a b : String × α => a.1 < b.1 := ⟨fun a => String.lt_irrefl a.1⟩
  have hanti : Std.Antisymm fun a b : String × α => a.1 < b.1 :=
    ⟨fun a b hlt hgt => absurd (String.lt_trans hlt hgt) (String.lt_irrefl a.1)⟩
  have hmem : ∀ e, e ∈ r.entries ↔ e ∈ other.entries := fun (id, a) => by
    rw [mem_entries_iff, mem_entries_iff, h]
  have hentries : r.entries = other.entries := r.ascending.eq_of_mem_iff other.ascending hmem
  obtain ⟨entries, ascending⟩ := r
  dsimp only at hentries
  subst hentries
  rfl

end Register
end Mosaic
