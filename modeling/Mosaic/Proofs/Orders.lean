import Mathlib.Algebra.Ring.Int.Defs
import Mosaic.Proofs.Products
import Mosaic.Proofs.Resumption

/-!
# The order of candidates

Operations compare by their keys, which tell them apart, so the comparison of candidates is a total order that
finds only equal candidates equal. A catalog whose stages ascend is enumerated in ascending order, as both
built-in catalogs are, and so the first candidate that solves a task is the least one
(`Session.search_finds_least`).
-/

namespace Mosaic

/-! ### Comparing by a key -/

section

variable {α β : Type} [Ord β] {f : α → β}

theorem lawfulEqCmp_compareOn [Std.LawfulEqOrd β] (hf : f.Injective) : Std.LawfulEqCmp (compareOn f) where
  compare_self := Std.ReflOrd.compare_self
  eq_of_compare h := hf (Std.LawfulEqOrd.eq_of_compare h)

end

theorem compare_natCast (m n : Nat) : compare (m : Int) n = compare m n := by
  simp only [compare, compareOfLessAndEq, Int.ofNat_lt, Int.ofNat_inj]

theorem compare_cons (m n : Nat) (l l' : List Int) :
    compare ((m : Int) :: l) ((n : Int) :: l') = (compare m n).then (compare l l') := by
  rw [← compare_natCast]
  show List.compareLex compare _ _ = _
  rw [List.compareLex_cons_cons]
  cases compare (m : Int) n <;> rfl

/-- Keys that start with a tag compare by it, then by what follows. -/
theorem compare_tagged {α : Type} {key : α → List Int} {tag : α → Nat}
    (h : ∀ a, key a = (tag a : Int) :: (key a).tail) (a b : α) :
    compare (key a) (key b) = (compare (tag a) (tag b)).then (compare (key a).tail (key b).tail) := by
  rw [← compare_cons, ← h, ← h]

theorem Axis.number_injective : number.Injective := by
  intro a b h
  cases a <;> cases b <;> simp_all [number]

theorem ColorSource.key_injective : key.Injective := by
  intro s t h
  cases s <;> cases t <;> simp_all [key, UInt8.toNat_inj]

namespace Preprocess

variable {p q : Preprocess}

theorem key_injective : key.Injective := by
  intro p q h
  cases p <;> cases q <;> simp_all [key, UInt8.toNat_inj]

instance : Std.TransOrd Preprocess := inferInstanceAs (Std.TransCmp (compareOn key))

instance : Std.LawfulEqOrd Preprocess := lawfulEqCmp_compareOn (f := key) key_injective

theorem key_eq (p : Preprocess) : p.key = (p.ctorIdx : Int) :: p.key.tail := by
  cases p <;> rfl

theorem compare_eq : compare p q = (compare p.ctorIdx q.ctorIdx).then (compare p.key.tail q.key.tail) :=
  compare_tagged key_eq p q

end Preprocess

namespace Transform

variable {t u : Transform}

theorem key_injective : key.Injective := by
  intro t u h
  cases t <;> cases u <;>
    simp_all [key, UInt8.toNat_inj, Int8.toInt_inj, Axis.number_injective.eq_iff,
      ColorSource.key_injective.eq_iff]

instance : Std.TransOrd Transform := inferInstanceAs (Std.TransCmp (compareOn key))

instance : Std.LawfulEqOrd Transform := lawfulEqCmp_compareOn (f := key) key_injective

theorem key_eq (t : Transform) : t.key = (t.ctorIdx : Int) :: t.key.tail := by
  cases t <;> rfl

theorem compare_eq : compare t u = (compare t.ctorIdx u.ctorIdx).then (compare t.key.tail u.key.tail) :=
  compare_tagged key_eq t u

end Transform

namespace Query

variable {q r : Query}

theorem key_injective : key.Injective := by
  intro q r h
  cases q <;> cases r <;> simp_all [key, UInt8.toNat_inj]

instance : Std.TransOrd Query := inferInstanceAs (Std.TransCmp (compareOn key))

instance : Std.LawfulEqOrd Query := lawfulEqCmp_compareOn (f := key) key_injective

theorem key_eq (q : Query) : q.key = (q.ctorIdx : Int) :: q.key.tail := by
  cases q <;> rfl

theorem compare_eq : compare q r = (compare q.ctorIdx r.ctorIdx).then (compare q.key.tail r.key.tail) :=
  compare_tagged key_eq q r

end Query

namespace Candidate

variable {c d : Candidate}

theorem compare_eq : compare c d = (compare c.preprocess d.preprocess).then
    ((compare c.transform d.transform).then (compare c.query d.query)) := rfl

instance : Std.TransOrd Candidate := inferInstanceAs (Std.TransCmp (compareLex (compareOn preprocess)
  (compareLex (compareOn transform) (compareOn query))))

instance : Std.LawfulEqOrd Candidate where
  compare_self := Std.ReflOrd.compare_self
  eq_of_compare {c d} h := by
    rw [compare_eq, Ordering.then_eq_eq, Ordering.then_eq_eq] at h
    obtain ⟨hp, ht, hq⟩ := h
    rw [Candidate.mk.injEq]
    exact ⟨Std.LawfulEqOrd.eq_of_compare hp, Std.LawfulEqOrd.eq_of_compare ht, Std.LawfulEqOrd.eq_of_compare hq⟩

end Candidate

/-! ### Ascending lists -/

/-- Each member is less than all after it. -/
def Ascending {α : Type} [Ord α] (l : List α) : Prop := l.Pairwise fun a b => compare a b = .lt

namespace Ascending

variable {α : Type} [Ord α] {l : List α} {a b : α} {i j : Nat}

instance : Decidable (Ascending l) := inferInstanceAs (Decidable (l.Pairwise _))

theorem nodup [Std.ReflOrd α] (h : Ascending l) : l.Nodup := by
  refine List.Pairwise.imp (fun hlt heq => ?_) h
  rw [heq, Std.ReflOrd.compare_self] at hlt
  contradiction

theorem isLE_of_le [Std.ReflOrd α] (h : Ascending l) (ha : l[i]? = some a) (hb : l[j]? = some b) (hle : i ≤ j) :
    (compare a b).isLE := by
  obtain ⟨hi, rfl⟩ := List.getElem?_eq_some_iff.mp ha
  obtain ⟨hj, rfl⟩ := List.getElem?_eq_some_iff.mp hb
  rcases Nat.lt_or_eq_of_le hle with hlt | rfl
  · rw [List.pairwise_iff_getElem.mp h i j hi hj hlt]
    rfl
  · rw [Std.ReflOrd.compare_self]
    rfl

end Ascending

theorem Enumeration.ascending_product {e : Enumeration} (hp : Ascending e.preprocesses.toList)
    (ht : Ascending e.transforms.toList) (hq : Ascending e.queries.toList) : Ascending e.product := by
  unfold product Ascending
  rw [List.pairwise_flatMap]
  constructor
  · intro p _
    rw [List.pairwise_flatMap]
    constructor
    · intro t _
      rw [List.pairwise_map]
      refine List.Pairwise.imp (fun hlt => ?_) hq
      rw [Candidate.compare_eq, Std.ReflOrd.compare_self, Std.ReflOrd.compare_self, hlt]
      rfl
    · refine List.Pairwise.imp (fun hlt c hc d hd => ?_) ht
      obtain ⟨q, -, rfl⟩ := List.mem_map.mp hc
      obtain ⟨r, -, rfl⟩ := List.mem_map.mp hd
      rw [Candidate.compare_eq, Std.ReflOrd.compare_self, hlt]
      rfl
  · refine List.Pairwise.imp (fun hlt c hc d hd => ?_) hp
    obtain ⟨t, -, hc⟩ := List.mem_flatMap.mp hc
    obtain ⟨u, -, hd⟩ := List.mem_flatMap.mp hd
    obtain ⟨q, -, rfl⟩ := List.mem_map.mp hc
    obtain ⟨r, -, rfl⟩ := List.mem_map.mp hd
    rw [Candidate.compare_eq, hlt]
    rfl

namespace Catalog

variable {catalog : Catalog}

structure AscendingStages (catalog : Catalog) : Prop where
  preprocess : Ascending (CatalogEntry.values catalog.preprocess)
  transform : Ascending (CatalogEntry.values catalog.transform)
  query : Ascending (CatalogEntry.values catalog.query)

theorem AscendingStages.ascending_candidates (h : catalog.AscendingStages) : Ascending catalog.candidates := by
  rw [candidates_eq_product]
  exact Enumeration.ascending_product h.preprocess h.transform h.query

theorem ascendingStages_ofVariant (variant : CatalogVariant) : (ofVariant variant).AscendingStages := by
  cases variant <;> exact ⟨by decide +kernel, by decide +kernel, by decide +kernel⟩

/-- The candidate solves the task, and none of the catalog that does is less. -/
structure Least (catalog : Catalog) (task : Task) (c : Candidate) : Prop where
  mem : c ∈ catalog.candidates
  solves : c.Solves task
  isLE : ∀ d ∈ catalog.candidates, d.Solves task → (compare c d).isLE

variable {task : Task} {c d : Candidate} {i : Nat}

theorem Least.unique (h : catalog.Least task c) (h' : catalog.Least task d) : c = d :=
  Std.LawfulEqOrd.eq_of_compare (Std.OrientedCmp.isLE_antisymm (h.isLE d h'.mem h'.solves) (h'.isLE c h.mem h.solves))

theorem FirstSolving.least (hstages : catalog.AscendingStages) (h : catalog.FirstSolving task i c) :
    catalog.Least task c := by
  have hc : catalog.candidates[i]? = some c := nth?_enumeration.symm.trans h.nth
  refine ⟨List.mem_of_getElem? hc, h.solves, fun d hd hsolves => ?_⟩
  obtain ⟨j, hj⟩ := List.getElem?_of_mem hd
  exact hstages.ascending_candidates.isLE_of_le hc hj (h.index_le (nth?_enumeration.trans hj) hsolves)

end Catalog

namespace Session

/-- A session without a budget that knows nothing of the task finds the least candidate. -/
theorem search_solved_iff {s : Session} {task : Task} {c : Candidate} (hstages : s.catalog.AscendingStages)
    (hbudget : s.budget = .unlimited) (hverified : s.verified.get? task.id = none)
    (hseed : s.seeds.get? task.id = none) :
    (s.search task).1 = .solved c ↔ s.catalog.Least task c := by
  rw [search_of_no_seed hverified hseed]
  have hends := ends_enumerate s task
  constructor
  · intro h
    rw [h] at hends
    obtain ⟨i, hfirst, -⟩ := hends
    exact hfirst.least hstages
  · intro h
    -- the search cannot end without a candidate, as `c` is in reach
    obtain ⟨i, hi⟩ := List.getElem?_of_mem h.mem
    have hreach : s.catalog.Reaches s.budget c :=
      ⟨i, Catalog.nth?_enumeration.trans hi, by rw [hbudget]; exact ENat.natCast_lt_top i⟩
    obtain ⟨d, hd⟩ := hends.exists_solved hreach h.solves
    rw [hd] at hends
    obtain ⟨j, hfirst, -⟩ := hends
    rw [hd, (hfirst.least hstages).unique h]

/-- Candidates are ordered by their preprocessing, then their transform, then their query, and these by their
position among their kind, then their data; a search that nothing cuts short ends with the least candidate that
solves the task. -/
theorem search_finds_least :
    (∀ c d : Candidate, compare c d = .eq ↔ c = d) ∧
    (∀ c d : Candidate, compare d c = (compare c d).swap) ∧
    (∀ b c d : Candidate, (compare b c).isLE → (compare c d).isLE → (compare b d).isLE) ∧
    (∀ c d : Candidate, compare c d = (compare c.preprocess d.preprocess).then
      ((compare c.transform d.transform).then (compare c.query d.query))) ∧
    (∀ p q : Preprocess, compare p q = (compare p.ctorIdx q.ctorIdx).then (compare p.key.tail q.key.tail)) ∧
    (∀ t u : Transform, compare t u = (compare t.ctorIdx u.ctorIdx).then (compare t.key.tail u.key.tail)) ∧
    (∀ q r : Query, compare q r = (compare q.ctorIdx r.ctorIdx).then (compare q.key.tail r.key.tail)) ∧
    (∀ catalog : Catalog, catalog.AscendingStages → Ascending catalog.candidates ∧ catalog.candidates.Nodup) ∧
    (∀ variant, (Catalog.ofVariant variant).AscendingStages) ∧
    ∀ variant task c, ((new variant).search task).1 = .solved c ↔ (Catalog.ofVariant variant).Least task c := by
  refine ⟨fun c d => Std.LawfulEqOrd.compare_eq_iff_eq, fun c d => Std.OrientedOrd.eq_swap,
    fun b c d => Std.TransCmp.isLE_trans, fun c d => Candidate.compare_eq, fun p q => Preprocess.compare_eq,
    fun t u => Transform.compare_eq, fun q r => Query.compare_eq, fun catalog h => ?_,
    Catalog.ascendingStages_ofVariant, fun variant task c => ?_⟩
  · exact ⟨h.ascending_candidates, h.ascending_candidates.nodup⟩
  · exact search_solved_iff (Catalog.ascendingStages_ofVariant variant) rfl rfl rfl

/-- Of the queries that select the right one of two tiles, the first is found; and a small catalog's candidates
ascend as its stages do. -/
theorem search_finds_least_of_two :
    let pair : TrainingPair :=
      ⟨⟨1, 2, #[1, 2], by decide, by decide, rfl⟩, ⟨1, 4, #[0, 0, 1, 2], by decide, by decide, rfl⟩⟩
    let task : Task := { train := [pair], test := [], id := "row" }
    let catalog : Catalog := {
      variant := .standard
      preprocess := [⟨"identity", [.identity]⟩]
      transform := [⟨"flip", [.flip .rows, .flip .cols]⟩, ⟨"roll", [.roll (-1) .cols, .roll 1 .rows]⟩]
      query := [⟨"query_true", [.always]⟩] }
    let highest : Candidate := ⟨.identity, .identity, .maxColor1d⟩
    let second : Candidate := ⟨.identity, .identity, .color 2⟩
    ((new .standard).search task).1 = .solved highest ∧ second.Solves task ∧ (compare highest second).isLE ∧
      catalog.AscendingStages ∧ catalog.candidates.Nodup := by
  intro pair task catalog highest second
  obtain ⟨-, -, -, -, -, -, -, hascend, -, hleast⟩ := search_finds_least
  have hfound : ((new .standard).search task).1 = .solved highest := by decide +kernel
  have hsecond : second.Solves task := List.forall_mem_singleton.mpr (by unfold Candidate.Reproduces; decide +kernel)
  have hmem : second ∈ (Catalog.ofVariant .standard).candidates :=
    Catalog.mem_candidates_iff.mpr (by decide +kernel)
  have hstages : catalog.AscendingStages := ⟨by decide, by decide, by decide⟩
  exact ⟨hfound, hsecond, ((hleast _ _ _).mp hfound).isLE second hmem hsecond, hstages,
    (hascend catalog hstages).2⟩

end Session
end Mosaic
