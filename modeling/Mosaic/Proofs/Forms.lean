import Mosaic.Json.Search
import Mosaic.Json.Task
import Mosaic.Proofs.Readers
import Mosaic.Proofs.Validity

/-!
# The JSON forms are faithful

Every type with a JSON form reads what it writes, and reads nothing that is not valid (`Json.Faithful`): grids
and what is made of them, the stages of candidates with any data, registers with any ids, and the limits and
figures of searches, whose counts and seconds are written in 64 bits.
-/

namespace Mosaic

open Json Decoded

/-! ### Grids -/

theorem UInt8.faithful : Faithful UInt8 fun _ => True where
  read_write n _ := by
    show UInt8.ofNat <$> Scan.natBelow 256 (Json.int n.toNat).scan = .ok n
    rw [agrees_nat.read_write n.toNat n.toNat_lt]
    exact congrArg Except.ok UInt8.ofNat_toNat
  gives _ := gives_true

theorem Int8.faithful : Faithful Int8 fun _ => True where
  read_write n _ := by
    show Int8.ofInt <$> Scan.intWithin (-128) 128 (Json.int n.toInt).scan = .ok n
    have hread : Scan.intWithin (-128) 128 (Json.int n.toInt).scan = .ok n.toInt :=
      agrees_int.read_write n.toInt ⟨n.le_toInt, n.toInt_lt⟩
    rw [hread]
    exact congrArg Except.ok (Int8.ofInt_toInt n)
  gives _ := gives_true

namespace Grid

variable {g : Grid}

theorem faithful : Faithful Grid Valid where
  read_write g h := by
    have hrows : (JsonForm.ofScan (toJson g).scan : Decoded (List (List Color))) = .ok g.toRows :=
      UInt8.faithful.list.list.read_write g.toRows fun _ _ _ _ => trivial
    refine bind_eq_ok hrows ?_
    rw [ofRows_toRows (valid_iff.mp h)]
    rfl
  gives value g h := valid_iff.mpr (inPalette_of_ofScan h)

theorem scan_ne_null : (toJson g).scan ≠ .null := nofun

end Grid

/-! ### Tasks -/

namespace TrainingPair

structure Valid (pair : TrainingPair) : Prop where
  input : pair.input.Valid
  output : pair.output.Valid

/-- What has been read of the pair is valid. -/
structure Draft.Valid (draft : Draft) : Prop where
  input : ∀ g ∈ draft.input, g.Valid
  output : ∀ g ∈ draft.output, g.Valid

theorem keeps_fields : Keeps fields Draft.Valid := by
  intro key field h value draft hdraft
  unfold fields at h
  split at h <;> cases h
  · exact gives_once (Grid.faithful.gives value) fun g hg => ⟨forall_mem_some hg, hdraft.output⟩
  · exact gives_once (Grid.faithful.gives value) fun g hg => ⟨hdraft.input, forall_mem_some hg⟩

theorem faithful : Faithful TrainingPair Valid where
  read_write pair h := by
    have hdraft : Scan.readMembers fields [(some "input", (toJson pair.input).scan),
        (some "output", (toJson pair.output).scan)] ⟨none, none⟩ = .ok ⟨some pair.input, some pair.output⟩ :=
      readMembers_once rfl rfl (Grid.faithful.read_write _ h.input)
        (readMembers_once rfl rfl (Grid.faithful.read_write _ h.output) rfl)
    exact bind_eq_ok hdraft rfl
  gives value := by
    cases value with
    | obj members =>
      have hstart : Draft.Valid ⟨none, none⟩ := ⟨nofun, nofun⟩
      exact (gives_readMembers keeps_fields hstart).bind fun draft hdraft =>
        (gives_required hdraft.input).bind fun input hinput =>
        (gives_required hdraft.output).bind fun output houtput => gives_ok ⟨hinput, houtput⟩
    | arr items =>
      exact (gives_element Grid.faithful.gives).bind fun (input, rest) hinput =>
        (gives_element Grid.faithful.gives).bind fun (output, rest) houtput =>
        gives_complete ⟨hinput, houtput⟩
    | null | bool | int | str | foreign | gap => exact gives_error

end TrainingPair

namespace TestCase

structure Valid (case : TestCase) : Prop where
  input : case.input.Valid
  output : ∀ g ∈ case.output, g.Valid

/-- What has been read of the test case is valid. -/
structure Draft.Valid (draft : Draft) : Prop where
  input : ∀ g ∈ draft.input, g.Valid
  output : ∀ output ∈ draft.output, ∀ g ∈ output, g.Valid

theorem faithful_output : Faithful (Option Grid) fun output => ∀ g ∈ output, g.Valid :=
  Grid.faithful.option fun _ => Grid.scan_ne_null

theorem keeps_fields : Keeps fields Draft.Valid := by
  intro key field h value draft hdraft
  unfold fields at h
  split at h <;> cases h
  · exact gives_once (Grid.faithful.gives value) fun g hg => ⟨forall_mem_some hg, hdraft.output⟩
  · exact gives_once (faithful_output.gives value) fun g hg => ⟨hdraft.input, forall_mem_some hg⟩

theorem faithful : Faithful TestCase Valid where
  read_write case h := by
    obtain ⟨input, output⟩ := case
    have hinput := Grid.faithful.read_write input h.input
    cases output with
    | none =>
      have hdraft : Scan.readMembers fields [(some "input", (toJson input).scan)] ⟨none, none⟩ =
          .ok ⟨some input, none⟩ := readMembers_once rfl rfl hinput rfl
      exact bind_eq_ok hdraft rfl
    | some output =>
      have hdraft : Scan.readMembers fields [(some "input", (toJson input).scan),
          (some "output", (toJson output).scan)] ⟨none, none⟩ = .ok ⟨some input, some (some output)⟩ :=
        readMembers_once rfl rfl hinput
          (readMembers_once rfl rfl (faithful_output.read_write (some output) h.output) rfl)
      exact bind_eq_ok hdraft rfl
  gives value := by
    cases value with
    | obj members =>
      have hstart : Draft.Valid ⟨none, none⟩ := ⟨nofun, nofun⟩
      exact (gives_readMembers keeps_fields hstart).bind fun draft hdraft =>
        (gives_required hdraft.input).bind fun input hinput =>
        gives_ok ⟨hinput, valid_getD hdraft.output forall_mem_none⟩
    | arr items =>
      exact (gives_element Grid.faithful.gives).bind fun (input, rest) hinput =>
        (gives_elementOr faithful_output.gives forall_mem_none).bind fun (output, rest) houtput =>
        gives_complete ⟨hinput, houtput⟩
    | null | bool | int | str | foreign | gap => exact gives_error

end TestCase

namespace Examples

structure Valid (e : Examples) : Prop where
  train : ∀ pair ∈ e.train, pair.Valid
  test : ∀ case ∈ e.test, case.Valid

/-- What has been read of the examples is valid. -/
structure Draft.Valid (draft : Draft) : Prop where
  train : ∀ train ∈ draft.train, ∀ pair ∈ train, pair.Valid
  test : ∀ test ∈ draft.test, ∀ case ∈ test, case.Valid

theorem faithful_train : Faithful (List TrainingPair) fun train => ∀ pair ∈ train, pair.Valid :=
  TrainingPair.faithful.list

theorem faithful_test : Faithful (List TestCase) fun test => ∀ case ∈ test, case.Valid := TestCase.faithful.list

theorem keeps_fields : Keeps fields Draft.Valid := by
  intro key field h value draft hdraft
  unfold fields at h
  split at h <;> cases h
  · exact gives_once (faithful_train.gives value) fun train htrain => ⟨forall_mem_some htrain, hdraft.test⟩
  · exact gives_once (faithful_test.gives value) fun test htest => ⟨hdraft.train, forall_mem_some htest⟩

theorem faithful : Faithful Examples Valid where
  read_write e h := by
    have hdraft : Scan.readMembers fields [(some "train", (toJson e.train).scan),
        (some "test", (toJson e.test).scan)] ⟨none, none⟩ = .ok ⟨some e.train, some e.test⟩ :=
      readMembers_once rfl rfl (faithful_train.read_write _ h.train)
        (readMembers_once rfl rfl (faithful_test.read_write _ h.test) rfl)
    exact bind_eq_ok hdraft rfl
  gives value := by
    cases value with
    | obj members =>
      have hstart : Draft.Valid ⟨none, none⟩ := ⟨nofun, nofun⟩
      exact (gives_readMembers keeps_fields hstart).bind fun draft hdraft =>
        (gives_required hdraft.train).bind fun train htrain =>
        gives_ok ⟨htrain, valid_getD hdraft.test (List.forall_mem_nil _)⟩
    | arr items =>
      exact (gives_element faithful_train.gives).bind fun (train, rest) htrain =>
        (gives_elementOr faithful_test.gives (List.forall_mem_nil _)).bind fun (test, rest) htest =>
        gives_complete ⟨htrain, htest⟩
    | null | bool | int | str | foreign | gap => exact gives_error

end Examples

/-! ### Candidates -/

theorem Axis.faithful : Faithful Axis fun _ => True where
  read_write axis _ := by cases axis <;> rfl
  gives _ := gives_true

theorem Preprocess.faithful : Faithful Preprocess fun _ => True where
  read_write p _ := by
    cases p with
    | identity => rfl
    | cropInner t => exact congrArg (cropInner <$> ·) (UInt8.faithful.read_write t trivial)
    | cropOuter t => exact congrArg (cropOuter <$> ·) (UInt8.faithful.read_write t trivial)
  gives _ := gives_true

theorem ColorSource.faithful : Faithful ColorSource fun _ => True where
  read_write s _ := by
    cases s with
    | maxColor | minColor | maxColor1d | countColors | countSquares => rfl
    | fixed color => exact congrArg (fixed <$> ·) (UInt8.faithful.read_write color trivial)
  gives _ := gives_true

namespace Transform

theorem rollOfScan_scan (shift : Int8) (axis : Axis) :
    rollOfScan (.obj [(some "shift", (toJson shift).scan), (some "axis", (toJson axis).scan)]) =
      .ok (roll shift axis) := by
  have hdraft : Scan.readMembers rollFields [(some "shift", (toJson shift).scan),
      (some "axis", (toJson axis).scan)] ⟨none, none⟩ = .ok ⟨some shift, some axis⟩ :=
    readMembers_once rfl rfl (Int8.faithful.read_write _ trivial)
      (readMembers_once rfl rfl (Axis.faithful.read_write _ trivial) rfl)
  exact bind_eq_ok hdraft rfl

theorem faithful : Faithful Transform fun _ => True where
  read_write t _ := by
    cases t with
    | identity | swapAxes | invertColor => rfl
    | flip axis => exact congrArg (flip <$> ·) (Axis.faithful.read_write axis trivial)
    | rot90 k => exact congrArg (rot90 <$> ·) (UInt8.faithful.read_write k trivial)
    | roll shift axis => exact rollOfScan_scan shift axis
    | rotateLoop s => exact congrArg (rotateLoop <$> ·) (Int8.faithful.read_write s trivial)
    | rotateLoopRows s => exact congrArg (rotateLoopRows <$> ·) (Int8.faithful.read_write s trivial)
    | rotateLoopCols s => exact congrArg (rotateLoopCols <$> ·) (Int8.faithful.read_write s trivial)
    | flipLoop s => exact congrArg (flipLoop <$> ·) (UInt8.faithful.read_write s trivial)
    | flipLoopRows s => exact congrArg (flipLoopRows <$> ·) (UInt8.faithful.read_write s trivial)
    | flipLoopCols s => exact congrArg (flipLoopCols <$> ·) (UInt8.faithful.read_write s trivial)
    | invert source => exact congrArg (invert <$> ·) (ColorSource.faithful.read_write source trivial)
  gives _ := gives_true

end Transform

theorem Query.faithful : Faithful Query fun _ => True where
  read_write q _ := by
    cases q with
    | color c => exact congrArg (color <$> ·) (UInt8.faithful.read_write c trivial)
    | bincount n => exact congrArg (bincount <$> ·) (UInt8.faithful.read_write n trivial)
    | bincountSorted rank => exact congrArg (bincountSorted <$> ·) (UInt8.faithful.read_write rank trivial)
    | _ => rfl
  gives _ := gives_true

theorem Candidate.faithful : Faithful Candidate fun _ => True where
  read_write c _ := by
    have hdraft : Scan.readMembers fields [(some "preprocess", (toJson c.preprocess).scan),
        (some "transform", (toJson c.transform).scan), (some "query", (toJson c.query).scan)] ⟨none, none, none⟩ =
        .ok ⟨some c.preprocess, some c.transform, some c.query⟩ :=
      readMembers_once rfl rfl (Preprocess.faithful.read_write _ trivial)
        (readMembers_once rfl rfl (Transform.faithful.read_write _ trivial)
          (readMembers_once rfl rfl (Query.faithful.read_write _ trivial) rfl))
    exact bind_eq_ok hdraft rfl
  gives _ := gives_true

/-! ### Registers -/

namespace Register

variable {α : Type}

/-- An entry whose id comes after all others is put at the end. -/
theorem insertEntry_of_lt {join : α → α} {id : String} {a : α} {l : List (String × α)}
    (h : ∀ e ∈ l, e.1 < id) : insertEntry join id a l = l ++ [(id, a)] := by
  induction l with
  | nil => rfl
  | cons e rest ih =>
    obtain ⟨hlt, hrest⟩ := List.forall_mem_cons.mp h
    have hne : id ≠ e.1 := fun heq => String.lt_irrefl id (heq ▸ hlt)
    rw [insertEntry, if_neg (String.not_lt.mpr (Std.le_of_lt hlt)), if_neg hne, ih hrest]
    rfl

/-- In ascending order no entry replaces one before. -/
theorem foldl_replace {r : Register α} {l : List (String × α)}
    (h : (r.entries ++ l).Pairwise fun a b => a.1 < b.1) :
    (l.foldl (fun r e => r.replace e.1 e.2) r).entries = r.entries ++ l := by
  induction l generalizing r with
  | nil => exact (List.append_nil _).symm
  | cons e rest ih =>
    have hreplace : (r.replace e.1 e.2).entries = r.entries ++ [e] :=
      insertEntry_of_lt fun d hd => (List.pairwise_append.mp h).2.2 d hd e (List.mem_cons_self ..)
    have hsplit : r.entries ++ e :: rest = r.entries ++ [e] ++ rest := by simp
    rw [List.foldl_cons, ih (by rw [hreplace, ← hsplit]; exact h), hreplace, hsplit]

theorem ofList_entries (r : Register α) : ofList r.entries = r := by
  have hentries : (ofList r.entries).entries = r.entries := foldl_replace r.ascending
  obtain ⟨entries, ascending⟩ := r
  generalize ofList _ = other at hentries
  cases other
  cases hentries
  rfl

variable [JsonForm α]

theorem readEntries_scan (h : Faithful α fun _ => True) (l : List (String × α)) :
    readEntries (Json.scanMembers (l.map fun e => (e.1, toJson e.2))) = .ok l := by
  induction l with
  | nil => rfl
  | cons e rest ih => exact bind_eq_ok (h.read_write e.2 trivial) (bind_eq_ok ih rfl)

theorem faithful (h : Faithful α fun _ => True) : Faithful (Register α) fun _ => True where
  read_write r _ := by
    show ofList <$> readEntries (Json.scanMembers (r.entries.map fun e => (e.1, toJson e.2))) = .ok r
    rw [readEntries_scan h]
    exact congrArg Except.ok r.ofList_entries
  gives _ := gives_true

end Register

/-! ### Budgets and figures -/

namespace Duration

/-- The seconds fit into 64 bits. -/
def Valid (d : Duration) : Prop := d.seconds < wordLimit

theorem ofParts_of_valid {d : Duration} (h : d.Valid) : ofParts d.seconds d.nanos = .ok d := by
  have hparts : ofNanos d.seconds d.nanos = d := by
    obtain ⟨seconds, nanos, hnanos⟩ := d
    simp [ofNanos, Nat.div_eq_of_lt hnanos, Nat.mod_eq_of_lt hnanos]
  unfold ofParts
  rw [hparts]
  exact if_pos h

theorem gives_ofParts {seconds nanos : Nat} : Gives (ofParts seconds nanos) Valid := by
  unfold ofParts
  dsimp only
  split
  · exact gives_ok ‹_›
  · exact gives_error

theorem faithful : Faithful Duration Valid where
  read_write d h := by
    have hnanos : d.nanos < nanosLimit := d.nanos_lt.trans (by decide)
    have hdraft : Scan.readMembers fields [(some "secs", .int d.seconds), (some "nanos", .int d.nanos)]
        ⟨none, none⟩ = .ok ⟨some d.seconds, some d.nanos⟩ :=
      readMembers_once rfl rfl (agrees_nat.read_write d.seconds h)
        (readMembers_once rfl rfl (agrees_nat.read_write d.nanos hnanos) rfl)
    exact bind_eq_ok hdraft (ofParts_of_valid h)
  gives value := by
    cases value with
    | obj members =>
      exact gives_true.bind fun draft _ => gives_true.bind fun seconds _ => gives_true.bind fun nanos _ =>
        gives_ofParts
    | arr items =>
      exact gives_true.bind fun _ _ => gives_true.bind fun _ _ => gives_ofParts.bind fun d hd => gives_complete hd
    | null | bool | int | str | foreign | gap => exact gives_error

theorem scan_ne_null {d : Duration} : (toJson d).scan ≠ .null := nofun

end Duration

namespace Budget

/-- The limits fit into 64 bits. -/
structure Valid (b : Budget) : Prop where
  maxCandidates : ∀ n ∈ b.maxCandidates, n < wordLimit
  timeLimit : ∀ d ∈ b.timeLimit, d.Valid

/-- What has been read of the budget is valid. -/
structure Draft.Valid (draft : Draft) : Prop where
  maxCandidates : ∀ limit ∈ draft.maxCandidates, ∀ n ∈ limit, n < wordLimit
  timeLimit : ∀ limit ∈ draft.timeLimit, ∀ d ∈ limit, d.Valid

theorem agrees_limit : Agrees (Json.orNull fun n : Nat => .int n) limitOfScan
    fun limit => ∀ n ∈ limit, n < wordLimit :=
  agrees_nat.option nofun

theorem faithful_timeLimit : Faithful (Option Duration) fun limit => ∀ d ∈ limit, d.Valid :=
  Duration.faithful.option fun _ => Duration.scan_ne_null

theorem keeps_fields : Keeps fields Draft.Valid := by
  intro key field h value draft hdraft
  unfold fields at h
  split at h <;> cases h
  · exact gives_once (agrees_limit.gives value) fun limit hlimit => ⟨forall_mem_some hlimit, hdraft.timeLimit⟩
  · exact gives_once (faithful_timeLimit.gives value) fun limit hlimit =>
      ⟨hdraft.maxCandidates, forall_mem_some hlimit⟩

theorem toJson_eq (b : Budget) : toJson b = .obj [
    ("max_candidates", Json.orNull (fun n : Nat => .int n) b.maxCandidates),
    ("time_limit", toJson b.timeLimit)] := by
  obtain ⟨maxCandidates, timeLimit⟩ := b
  cases maxCandidates <;> rfl

theorem faithful : Faithful Budget Valid where
  read_write b h := by
    rw [toJson_eq]
    have hdraft : Scan.readMembers fields
        [(some "max_candidates", (Json.orNull (fun n : Nat => .int n) b.maxCandidates).scan),
          (some "time_limit", (toJson b.timeLimit).scan)] ⟨none, none⟩ =
        .ok ⟨some b.maxCandidates, some b.timeLimit⟩ :=
      readMembers_once rfl rfl (agrees_limit.read_write _ h.maxCandidates)
        (readMembers_once rfl rfl (faithful_timeLimit.read_write _ h.timeLimit) rfl)
    exact bind_eq_ok hdraft rfl
  gives value := by
    cases value with
    | obj members =>
      have hstart : Draft.Valid ⟨none, none⟩ := ⟨nofun, nofun⟩
      exact (gives_readMembers keeps_fields hstart).bind fun draft hdraft =>
        gives_ok ⟨valid_getD hdraft.maxCandidates forall_mem_none,
          valid_getD hdraft.timeLimit forall_mem_none⟩
    | arr items =>
      exact (gives_element agrees_limit.gives).bind fun (maxCandidates, rest) hmax =>
        (gives_element faithful_timeLimit.gives).bind fun (timeLimit, rest) htime =>
        gives_complete ⟨hmax, htime⟩
    | null | bool | int | str | foreign | gap => exact gives_error

end Budget

namespace Stats

/-- The figures fit into 64 bits. -/
structure Valid (s : Stats) : Prop where
  candidates : s.candidates < wordLimit
  trials : s.trials < wordLimit
  failures : s.failures < wordLimit
  solved : s.solved < wordLimit

/-- What has been read of the figures fits into 64 bits. -/
structure Draft.Valid (draft : Draft) : Prop where
  candidates : ∀ n ∈ draft.candidates, n < wordLimit
  trials : ∀ n ∈ draft.trials, n < wordLimit
  failures : ∀ n ∈ draft.failures, n < wordLimit
  solved : ∀ n ∈ draft.solved, n < wordLimit

theorem agrees_count : Agrees (fun n : Nat => .int n) countOfScan (· < wordLimit) := agrees_nat

theorem keeps_fields : Keeps fields Draft.Valid := by
  intro key field h value draft hdraft
  have hcount := agrees_count.gives value
  unfold fields at h
  split at h <;> cases h
  · exact gives_once hcount fun n hn => { hdraft with candidates := forall_mem_some hn }
  · exact gives_once hcount fun n hn => { hdraft with trials := forall_mem_some hn }
  · exact gives_once hcount fun n hn => { hdraft with failures := forall_mem_some hn }
  · exact gives_once hcount fun n hn => { hdraft with solved := forall_mem_some hn }

theorem faithful : Faithful Stats Valid where
  read_write s h := by
    have hdraft : Scan.readMembers fields [(some "candidates", .int s.candidates), (some "trials", .int s.trials),
        (some "failures", .int s.failures), (some "solved", .int s.solved)] ⟨none, none, none, none⟩ =
        .ok ⟨some s.candidates, some s.trials, some s.failures, some s.solved⟩ :=
      readMembers_once rfl rfl (agrees_count.read_write _ h.candidates)
        (readMembers_once rfl rfl (agrees_count.read_write _ h.trials)
          (readMembers_once rfl rfl (agrees_count.read_write _ h.failures)
            (readMembers_once rfl rfl (agrees_count.read_write _ h.solved) rfl)))
    exact bind_eq_ok hdraft rfl
  gives value := by
    cases value with
    | obj members =>
      have hstart : Draft.Valid ⟨none, none, none, none⟩ := ⟨nofun, nofun, nofun, nofun⟩
      exact (gives_readMembers keeps_fields hstart).bind fun draft hdraft =>
        (gives_required hdraft.candidates).bind fun candidates hcandidates =>
        (gives_required hdraft.trials).bind fun trials htrials =>
        (gives_required hdraft.failures).bind fun failures hfailures =>
        (gives_required hdraft.solved).bind fun solved hsolved =>
        gives_ok ⟨hcandidates, htrials, hfailures, hsolved⟩
    | arr items =>
      have hcount : ∀ items, Gives (Scan.element countOfScan items) fun r => r.1 < wordLimit := fun _ =>
        gives_element agrees_count.gives
      exact (hcount _).bind fun (candidates, rest) hcandidates => (hcount _).bind fun (trials, rest) htrials =>
        (hcount _).bind fun (failures, rest) hfailures => (hcount _).bind fun (solved, rest) hsolved =>
        gives_complete ⟨hcandidates, htrials, hfailures, hsolved⟩
    | null | bool | int | str | foreign | gap => exact gives_error

end Stats
end Mosaic
