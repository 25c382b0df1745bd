import Mosaic.Proofs.Orders
import Mosaic.Proofs.Snapshots
import Mosaic.Proofs.Sources

/-!
# Where sequences start

Sequences of one kind whose starts differ by whole turns supply the same tiles, so two trials that differ in
such a start go in lockstep (`TileSource.tileFrom_congr`). Both catalogs list every start of a turning sequence
that is not negative after the one that is four quarters less. A candidate with such a start has its twin before
it in the enumeration, and the first candidate that solves a task is never one of them
(`Catalog.FirstSolving.not_startsLate`). A session without seeds answers with such first candidates only
(`Session.Found`), even for an id under which another task was solved.
-/

namespace Mosaic

/-! ### Trials in lockstep -/

namespace TileSource

/-- The sources supply the same tiles from now on. -/
def Agrees (source source' : TileSource) : Prop := ∀ n, source.nth n = source'.nth n

variable {source source' : TileSource} {q : Query} {working blank canvas : Grid} {across todo i n : Nat}

theorem drop_next : source.next.2.drop n = source.drop (n + 1) := by
  induction n with
  | zero => rfl
  | succ n ih => rw [drop, ih]; rfl

theorem Agrees.head (h : source.Agrees source') : source.next.1 = source'.next.1 := h 0

theorem Agrees.tail (h : source.Agrees source') : source.next.2.Agrees source'.next.2 := by
  intro n
  rw [nth, nth, drop_next, drop_next]
  exact h (n + 1)

/-- Step by step the two trials select the same tiles and lay the same contents, or fail alike. -/
theorem tileFrom_congr (h : source.Agrees source') :
    source.tileFrom q working blank across todo i canvas =
      source'.tileFrom q working blank across todo i canvas := by
  induction todo generalizing source source' i canvas with
  | zero => rfl
  | succ todo ih =>
    have hhead := h.head
    have htail := h.tail
    rw [tileFrom, tileFrom]
    rcases hnext : source.next with ⟨tile, rest⟩
    rcases hnext' : source'.next with ⟨tile', rest'⟩
    rw [hnext, hnext'] at hhead htail
    obtain rfl : tile = tile' := hhead
    rcases q.evaluate working (i / across % working.rows) (i % across % working.cols) with failure | _ | _
    · rfl
    · dsimp only
      cases canvas.writeBlock (i / across * working.rows) (i % across * working.cols) blank with
      | error failure => rfl
      | ok canvas => exact ih h
    · cases tile with
      | error failure => rfl
      | ok tile =>
        dsimp only
        cases canvas.placeTile working (i / across) (i % across) tile with
        | error failure => rfl
        | ok canvas => exact ih htail

end TileSource

theorem Candidate.run_congr_of_agrees {p : Preprocess} {t t' : Transform} {q : Query}
    (h : ∀ working, (t.tiles working).Agrees (t'.tiles working)) (g : Grid) (canvas : Canvas) :
    run ⟨p, t, q⟩ g canvas = run ⟨p, t', q⟩ g canvas := by
  simp only [run, fill, TileSource.tileFrom_congr (h _)]

/-! ### Congruent starts -/

namespace Transform

/-- Sequences of one kind whose starts differ by whole turns. -/
inductive Congruent : Transform → Transform → Prop
  | rotateLoop {s s' : Int8} (h : s.toInt % 4 = s'.toInt % 4) : Congruent (rotateLoop s) (rotateLoop s')
  | rotateLoopRows {s s' : Int8} (h : s.toInt % 4 = s'.toInt % 4) :
    Congruent (rotateLoopRows s) (rotateLoopRows s')
  | rotateLoopCols {s s' : Int8} (h : s.toInt % 4 = s'.toInt % 4) :
    Congruent (rotateLoopCols s) (rotateLoopCols s')
  | flipLoop {s s' : UInt8} (h : s.toNat % 2 = s'.toNat % 2) : Congruent (flipLoop s) (flipLoop s')
  | flipLoopRows {s s' : UInt8} (h : s.toNat % 2 = s'.toNat % 2) :
    Congruent (flipLoopRows s) (flipLoopRows s')
  | flipLoopCols {s s' : UInt8} (h : s.toNat % 2 = s'.toNat % 2) :
    Congruent (flipLoopCols s) (flipLoopCols s')

variable {t t' : Transform} {g : Grid} {n : Nat}

theorem tile_congr (h : Congruent t t') : t.tile g n = t'.tile g n := by
  cases h <;> exact congrArg _ (Grid.turn_congr (by omega))

theorem Congruent.agrees (h : Congruent t t') : (t.tiles g).Agrees (t'.tiles g) := fun n => by
  rw [nth_tiles, nth_tiles, tile_congr h]

/-- A turning sequence whose start is not negative. -/
def startsLate : Transform → Bool
  | rotateLoop s | rotateLoopRows s | rotateLoopCols s => 0 ≤ s
  | _ => false

/-- The turning sequence that starts four quarters before. -/
def earlier : Transform → Transform
  | rotateLoop s => rotateLoop (s - 4)
  | rotateLoopRows s => rotateLoopRows (s - 4)
  | rotateLoopCols s => rotateLoopCols (s - 4)
  | t => t

theorem toInt_sub_four_emod (s : Int8) : (s - 4).toInt % 4 = s.toInt % 4 := by
  rw [Int8.toInt_sub, Int.bmod_def]
  have h4 : (4 : Int8).toInt = 4 := rfl
  rw [h4]
  split <;> omega

theorem congruent_earlier (h : t.startsLate = true) : Congruent t.earlier t := by
  cases t with
  | rotateLoop s => exact .rotateLoop (toInt_sub_four_emod s)
  | rotateLoopRows s => exact .rotateLoopRows (toInt_sub_four_emod s)
  | rotateLoopCols s => exact .rotateLoopCols (toInt_sub_four_emod s)
  | _ => cases h

end Transform

theorem Candidate.run_congr_of_congruent {p : Preprocess} {t t' : Transform} {q : Query}
    (h : Transform.Congruent t t') (g : Grid) (canvas : Canvas) :
    run ⟨p, t, q⟩ g canvas = run ⟨p, t', q⟩ g canvas :=
  run_congr_of_agrees (fun _ => h.agrees) g canvas

/-! ### First candidates -/

namespace Catalog

variable {variant : CatalogVariant} {task : Task} {i : Nat} {c : Candidate} {t : Transform}

/-- Every late start is listed after the start four quarters before. -/
theorem earlier_listed (ht : t ∈ CatalogEntry.values (transformEntries variant)) (hlate : t.startsLate = true) :
    t.earlier ∈ CatalogEntry.values (transformEntries variant) ∧ compare t.earlier t = .lt := by
  have hall : ∀ u ∈ CatalogEntry.values (transformEntries variant), u.startsLate = true →
      u.earlier ∈ CatalogEntry.values (transformEntries variant) ∧ compare u.earlier u = .lt := by
    cases variant <;> decide +kernel
  exact hall t ht hlate

/-- Were the first candidate late, its twin four quarters before would solve the task and be less. -/
theorem FirstSolving.not_startsLate (h : (ofVariant variant).FirstSolving task i c) :
    c.transform.startsLate = false := by
  refine Bool.eq_false_iff.mpr fun hlate => ?_
  have hleast := h.least (ascendingStages_ofVariant variant)
  obtain ⟨hp, ht, hq⟩ := mem_candidates_iff.mp hleast.mem
  obtain ⟨hmem, hlt⟩ := earlier_listed ht hlate
  let twin : Candidate := { c with transform := c.transform.earlier }
  have htwin : twin ∈ (ofVariant variant).candidates := mem_candidates_iff.mpr ⟨hp, hmem, hq⟩
  have hsolves : twin.Solves task := fun pair hpair =>
    (Candidate.run_congr_of_congruent (Transform.congruent_earlier hlate) ..).trans (hleast.solves pair hpair)
  have hless : compare twin c = .lt := by
    rw [Candidate.compare_eq, Std.ReflOrd.compare_self, hlt]
    rfl
  have hle := hleast.isLE twin htwin hsolves
  rw [Std.OrientedOrd.eq_swap, hless] at hle
  contradiction

end Catalog

/-! ### Sessions without seeds -/

/-- A slot without a seed, whose solution is the first candidate that solves some task. -/
structure Slot.Found (catalog : Catalog) (slot : Slot) : Prop where
  noSeed : slot.seed = none
  first : ∀ c, slot.verified = some c → ∃ task i, catalog.FirstSolving task i c

namespace Slot

variable {catalog : Catalog} {slot : Slot} {budget : Budget} {task : Task} {c : Candidate}

theorem Found.search (h : slot.Found catalog) : (slot.search catalog budget task).2.Found catalog ∧
    ∀ c, (slot.search catalog budget task).1.outcome = .solved c → ∃ t i, catalog.FirstSolving t i c := by
  obtain ⟨verified, seed⟩ := slot
  obtain ⟨rfl, hfirst⟩ := h
  cases verified with
  | some d =>
    rw [search_of_verified]
    refine ⟨⟨rfl, hfirst⟩, fun c hc => hfirst c ?_⟩
    cases hc
    rfl
  | none =>
    have hends := Session.ends_tryAll catalog budget task
    have hsolved : ∀ c, (catalog.tryAll budget task).outcome = .solved c →
        ∃ t i, catalog.FirstSolving t i c := by
      intro c hc
      rw [hc] at hends
      obtain ⟨i, hi, -⟩ := hends
      exact ⟨task, i, hi⟩
    rw [search_of_no_seed]
    exact ⟨⟨rfl, fun c hc => hsolved c (Outcome.eq_solved_of_candidate? hc)⟩, hsolved⟩

end Slot

namespace Session

/-- Nothing is seeded, and every solution is the first candidate that solves some task. -/
def Found (s : Session) : Prop := ∀ id, (s.slot id).Found s.catalog

variable {s : Session} {event : Event} {events : List Event} {task : Task} {c : Candidate}

theorem found_new {variant : CatalogVariant} : (new variant).Found := fun _ => ⟨rfl, nofun⟩

theorem Found.search (h : s.Found) : (s.search task).2.Found := by
  intro id
  rw [catalog_search, slot_search]
  split
  · exact (h task.id).search.1
  · exact h id

theorem Found.after (h : s.Found) (hevent : ∀ seeds, event ≠ .seed seeds) : (s.after event).Found := by
  cases event with
  | seed seeds => exact absurd rfl (hevent seeds)
  | search task | solve task => exact h.search
  | budget b | apply task subject | predict task => exact h

theorem Found.run (h : s.Found) (hevents : ∀ seeds, Event.seed seeds ∉ events) : (s.run events).Found := by
  induction events generalizing s with
  | nil => exact h
  | cons event rest ih =>
    have hevent : ∀ seeds, event ≠ .seed seeds := by
      rintro seeds rfl
      exact hevents seeds (List.mem_cons_self ..)
    exact ih (h.after hevent) fun seeds hmem => hevents seeds (List.mem_cons_of_mem _ hmem)

theorem Found.exists_firstSolving (h : s.Found) (hsolved : (s.search task).1 = .solved c) :
    ∃ t i, s.catalog.FirstSolving t i c :=
  (h task.id).search.2 c (outcome_search.symm.trans hsolved)

/-- Trials whose sequences start a whole number of turns apart end alike. So a session that was never seeded
does not answer with a turning sequence whose start is not negative, whatever its catalog and budgets and
whatever it searched before: the sequence that starts four quarters earlier is tried before. -/
theorem late_starts_never_found :
    (∀ p t t' q g canvas, Transform.Congruent t t' →
      Candidate.run ⟨p, t, q⟩ g canvas = Candidate.run ⟨p, t', q⟩ g canvas) ∧
    ∀ variant events, (∀ seeds, Event.seed seeds ∉ events) → ∀ task c,
      (((new variant).run events).search task).1 = .solved c → c.transform.startsLate = false := by
  refine ⟨fun p t t' q g canvas h => Candidate.run_congr_of_congruent h g canvas, ?_⟩
  intro variant events hevents task c hsolved
  have hcatalog : ((new variant).run events).catalog = .ofVariant variant := catalog_run
  obtain ⟨t, i, hfirst⟩ := (found_new.run hevents).exists_firstSolving hsolved
  rw [hcatalog] at hfirst
  exact hfirst.not_startsLate

/-- The tiles are turned by one and by two quarters: the answer starts three quarters back, and the start one
quarter ahead does the same. A budget of three candidates did not find it. -/
theorem late_starts_never_found_turning :
    let pair : TrainingPair := ⟨⟨2, 2, #[1, 2, 3, 4], by decide, by decide, rfl⟩,
      ⟨2, 4, #[2, 4, 4, 3, 1, 3, 2, 1], by decide, by decide, rfl⟩⟩
    let task : Task := { train := [pair], test := [], id := "turning" }
    let events : List Event := [.budget ⟨some 3, none⟩, .search task, .budget .unlimited]
    let c : Candidate := ⟨.identity, .rotateLoop (-3), .always⟩
    let late : Candidate := ⟨.identity, .rotateLoop 1, .always⟩
    (∀ seeds, Event.seed seeds ∉ events) ∧ (((new .legacy).run events).search task).1 = .solved c ∧
      c.transform.startsLate = false ∧ late.transform.startsLate = true ∧
      late.run pair.input (.reference pair.output) = .ok pair.output := by
  intro pair task events c late
  have hevents : ∀ seeds, Event.seed seeds ∉ events := by simp [events]
  have hsolved : (((new .legacy).run events).search task).1 = .solved c := by decide +kernel
  have hrun : c.run pair.input (.reference pair.output) = .ok pair.output := by decide +kernel
  obtain ⟨halike, hearly⟩ := late_starts_never_found
  refine ⟨hevents, hsolved, hearly _ events hevents task c hsolved, rfl, ?_⟩
  exact (halike _ _ _ _ _ _ (.rotateLoop (by decide))).trans hrun

end Session
end Mosaic
