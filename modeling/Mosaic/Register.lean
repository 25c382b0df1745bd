/-!
# Registers

A register holds at most one value for an id and lists its entries in ascending order of the ids, so
that two registers with the same entries are equal. `Register.insert` never replaces a value,
`Register.replace` always does.
-/

namespace Mosaic

structure Register (α : Type) where
  entries : List (String × α)
  ascending : entries.Pairwise fun a b => a.1 < b.1
deriving DecidableEq

namespace Register

variable {α : Type}

def empty : Register α := ⟨[], .nil⟩

def get? (r : Register α) (id : String) : Option α := (r.entries.find? (·.1 = id)).map (·.2)

def contains (r : Register α) (id : String) : Bool := (r.get? id).isSome

def size (r : Register α) : Nat := r.entries.length

def isEmpty (r : Register α) : Bool := r.entries.isEmpty

def ids (r : Register α) : List String := r.entries.map (·.1)

/-- Entries with `a` put at the place of `id`; an entry there becomes `join` of its value. -/
def insertEntry (join : α → α) (id : String) (a : α) : List (String × α) → List (String × α)
  | [] => [(id, a)]
  | (k, b) :: rest =>
    if id < k then (id, a) :: (k, b) :: rest
    else if id = k then (k, join b) :: rest
    else (k, b) :: insertEntry join id a rest

theorem mem_insertEntry {join : α → α} {id : String} {a : α} {l : List (String × α)}
    {e : String × α} (h : e ∈ insertEntry join id a l) : e.1 = id ∨ ∃ d ∈ l, d.1 = e.1 := by
  induction l with
  | nil => simp_all [insertEntry]
  | cons d rest ih => obtain ⟨k, d⟩ := d; grind [insertEntry]

theorem pairwise_insertEntry {join : α → α} {id : String} {a : α} {l : List (String × α)}
    (h : l.Pairwise fun a b => a.1 < b.1) :
    (insertEntry join id a l).Pairwise fun a b => a.1 < b.1 := by
  induction l with
  | nil => simp [insertEntry]
  | cons d rest ih =>
    obtain ⟨k, d⟩ := d
    rw [List.pairwise_cons] at h
    unfold insertEntry
    split
    · rename_i hlt
      refine List.pairwise_cons.mpr ⟨fun e he => ?_, List.pairwise_cons.mpr h⟩
      cases he with
      | head => exact hlt
      | tail _ he => exact String.lt_trans hlt (h.1 e he)
    · split
      · exact List.pairwise_cons.mpr h
      · rename_i hnlt hne
        have hk : k < id := Std.lt_of_le_of_ne (String.not_lt.mp hnlt) (Ne.symm hne)
        refine List.pairwise_cons.mpr ⟨fun e he => ?_, ih h.2⟩
        rcases mem_insertEntry he with he | ⟨d', hd', he⟩
        · exact he ▸ hk
        · exact he ▸ h.1 d' hd'

/-- `a` recorded for `id`, unless there is an entry for it. -/
def insert (r : Register α) (id : String) (a : α) : Register α :=
  ⟨insertEntry (fun b => b) id a r.entries, pairwise_insertEntry r.ascending⟩

/-- `a` recorded for `id`, in place of an entry for it. -/
def replace (r : Register α) (id : String) (a : α) : Register α :=
  ⟨insertEntry (fun _ => a) id a r.entries, pairwise_insertEntry r.ascending⟩

def erase (r : Register α) (id : String) : Register α :=
  ⟨r.entries.filter (·.1 ≠ id), r.ascending.filter _⟩

/-- `a` recorded for `id`, told whether there was no entry for it. -/
def record (r : Register α) (id : String) (a : α) : Bool × Register α :=
  (!r.contains id, r.insert id a)

/-- The entry for `id` taken out, told what it was. -/
def remove (r : Register α) (id : String) : Option α × Register α := (r.get? id, r.erase id)

/-- The entries of both; where both have an id, that of `r`. -/
def merge (r other : Register α) : Register α :=
  other.entries.foldl (fun r e => r.insert e.1 e.2) r

/-- The entries of a list; of several with one id, the last. -/
def ofList (entries : List (String × α)) : Register α :=
  entries.foldl (fun r e => r.replace e.1 e.2) empty

end Register
end Mosaic
