import Mosaic.Proofs.Independence
import Mosaic.Proofs.Savings
import Mosaic.Proofs.Texts

/-!
# What reports say

A report agrees with itself and with its task (`TaskReport.TellsOf`): it says that the task is rejected just when it
is, it holds a candidate just when it says that this candidate solves the task, and it has an entry for each test input
then and nothing otherwise. The candidate is looked up after the search, and a session knows a solution then just when the
search has told of it (`Session.solution?_search`). Where the solve command succeeds, every file was read, and each
report that is published tells of the last file with its name, whatever the files, the seeds, the budget and the
searches that find their time limit reached.
-/

namespace Mosaic

namespace Outcome

variable {o : Outcome} {c : Candidate}

theorem text_eq_solved_iff : o.text = "solved by " ++ c.text ↔ o = solved c := by
  constructor
  · intro h
    obtain ⟨d, rfl⟩ := exists_of_text_eq (c := c) h
    exact congrArg solved (Candidate.text_injective ((String.append_right_inj "solved by ").mp h))
  · rintro rfl
    rfl

theorem text_ne_rejected : o.text ≠ "rejected" := by
  intro h
  have hrejected : "rejected".toList.head? = some 'r' := by decide
  have hinitial : o.initial = 'r' := by rw [← Option.some_inj, ← head?_text, h, hrejected]
  cases o with
  | solved c => exact absurd hinitial (show 's' ≠ 'r' by decide)
  | exhausted n => exact absurd hinitial (show 'u' ≠ 'r' by decide)
  | budgetExceeded n => exact absurd hinitial (show 'b' ≠ 'r' by decide)

end Outcome

/-! ### A report and its task -/

/-- An entry for a test input: the output that the session makes of it, or none if it fails to make any. -/
structure Predicts (s : Session) (task : Task) (case : TestCase) (entry : Option Grid) : Prop where
  none_iff : entry = none ↔ ∃ failure, s.apply task (.own case.input) = .error failure
  some_iff : ∀ g, entry = some g ↔ s.apply task (.own case.input) = .ok g

structure TaskReport.TellsOf (report : TaskReport) (s : Session) (task : Task) : Prop where
  rejected_iff : report.outcome = "rejected" ↔ task.isTiling = false
  of_rejected : report.outcome = "rejected" → report.candidate = none ∧ report.predictions = []
  candidate_iff : ∀ c, report.candidate = some c ↔ report.outcome = "solved by " ++ c.text
  candidate_eq : task.isTiling = true → report.candidate = s.solution? task
  predicts : ∀ c, report.candidate = some c → List.Forall₂ (Predicts s task) task.test report.predictions
  of_unsolved : report.outcome ≠ "rejected" → (∀ c : Candidate, report.outcome ≠ "solved by " ++ c.text) →
    report.candidate = none ∧ report.predictions = []

namespace Session

variable {s later : Session} {task : Task}

/-- After a search the session knows a solution just when the search was successful, and it is the one found. -/
theorem solution?_search (s : Session) (task : Task) :
    (s.search task).2.solution? task = (s.search task).1.candidate? := by
  cases hsearch : (s.search task).1 with
  | solved c => exact get?_of_search_solved hsearch
  | exhausted n | budgetExceeded n =>
    rcases search_cases s task with ⟨c, -, heq⟩ | ⟨c, -, -, heq⟩ | ⟨s', hnone, hver, heq⟩
    · rw [heq] at hsearch
      cases hsearch
    · rw [heq] at hsearch
      cases hsearch
    · rw [heq] at hsearch ⊢
      rw [solution?, verified_enumerate, hsearch, hver]
      exact hnone

theorem predicts_of_apply (case : TestCase) : Predicts s task case (s.apply task (.own case.input)).toOption := by
  constructor
  · cases s.apply task (.own case.input) <;> simp [Except.toOption]
  · cases s.apply task (.own case.input) <;> simp [Except.toOption]

theorem tellsOf_rejected (h : task.isTiling = false) : TaskReport.rejected.TellsOf s task where
  rejected_iff := ⟨fun _ => h, fun _ => rfl⟩
  of_rejected _ := ⟨rfl, rfl⟩
  candidate_iff c := by
    refine ⟨fun h => (by cases h), fun h => ?_⟩
    exact absurd (Outcome.text_eq_solved_iff.mpr rfl : (Outcome.solved c).text = _) fun heq =>
      Outcome.text_ne_rejected (heq.trans h.symm)
  candidate_eq htiling := absurd (htiling.symm.trans h) nofun
  predicts c h := by cases h
  of_unsolved h := absurd rfl h

/-- The report on an accepted task that was not solved. -/
theorem tellsOf_unsolved {o : Outcome} (htiling : task.isTiling = true) (h : o.candidate? = none)
    (hnone : s.solution? task = none) : TaskReport.TellsOf ⟨o.text, none, []⟩ s task where
  rejected_iff := ⟨fun heq => absurd heq Outcome.text_ne_rejected, fun heq => absurd (htiling.symm.trans heq) nofun⟩
  of_rejected _ := ⟨rfl, rfl⟩
  candidate_iff c := by
    refine ⟨nofun, fun heq => ?_⟩
    rw [Outcome.text_eq_solved_iff.mp heq] at h
    cases h
  candidate_eq _ := hnone.symm
  predicts := nofun
  of_unsolved _ _ := ⟨rfl, rfl⟩

theorem tellsOf_solved {c : Candidate} (htiling : task.isTiling = true) (hlater : later.solution? task = some c)
    (h : s.solution? task = some c) :
    TaskReport.TellsOf ⟨(Outcome.solved c).text, some c, (Strategy.tiling.predict s task).map Except.toOption⟩ later
      task where
  rejected_iff := ⟨fun heq => absurd heq (Outcome.text_ne_rejected (o := .solved c)),
    fun heq => absurd (htiling.symm.trans heq) nofun⟩
  of_rejected heq := absurd heq (Outcome.text_ne_rejected (o := .solved c))
  candidate_iff d := by
    rw [Outcome.text_eq_solved_iff, Option.some_inj, Outcome.solved.injEq]
  candidate_eq _ := hlater.symm
  predicts _ _ := by
    rw [Strategy.predict, List.map_map, List.forall₂_map_right_iff, List.forall₂_same]
    intro case _
    have happly : s.apply task (.own case.input) = later.apply task (.own case.input) :=
      apply_congr (h.trans hlater.symm)
    show Predicts later task case (s.apply task (.own case.input)).toOption
    rw [happly]
    exact predicts_of_apply case
  of_unsolved _ hunsolved := absurd rfl (hunsolved c)

/-- The report on a task tells of it, and goes on to do so as long as the session knows the same solution. -/
theorem tellsOf_report (hkept : later.solution? task = (s.search task).2.solution? task) :
    (s.report task).1.TellsOf later task := by
  cases htiling : task.isTiling with
  | false =>
    rw [report_of_not_isTiling htiling]
    exact tellsOf_rejected htiling
  | true =>
    have hsolution := solution?_search s task
    rw [report_of_isTiling htiling]
    cases hsearch : (s.search task).1 with
    | solved c =>
      rw [hsearch] at hsolution
      rw [hsolution]
      exact tellsOf_solved htiling (hkept.trans hsolution) hsolution
    | exhausted n | budgetExceeded n =>
      rw [hsearch] at hsolution
      rw [hsolution]
      exact tellsOf_unsolved htiling rfl (hkept.trans hsolution)

/-! ### The last of a name -/

theorem exists_last {listed : List Task} {id : String} (h : ∃ t ∈ listed, t.id = id) :
    ∃ before task after, listed = before ++ task :: after ∧ task.id = id ∧ ∀ t ∈ after, t.id ≠ id := by
  induction listed with
  | nil =>
    obtain ⟨t, ht, -⟩ := h
    cases ht
  | cons first rest ih =>
    by_cases hrest : ∃ t ∈ rest, t.id = id
    · obtain ⟨before, task, after, rfl, hid, hafter⟩ := ih hrest
      exact ⟨first :: before, task, after, rfl, hid, hafter⟩
    · obtain ⟨t, ht, hid⟩ := h
      have hfirst : t = first := (List.mem_cons.mp ht).resolve_right fun hmem => hrest ⟨t, hmem, hid⟩
      exact ⟨[], first, rest, rfl, hfirst ▸ hid, fun u hu huid => hrest ⟨u, hu, huid⟩⟩

/-- There is one last task of a name. -/
theorem eq_of_last {before before' after after' : List Task} {task' : Task}
    (h : before ++ task :: after = before' ++ task' :: after') (hid : task.id = task'.id)
    (hafter : ∀ t ∈ after, t.id ≠ task.id) (hafter' : ∀ t ∈ after', t.id ≠ task'.id) :
    before = before' ∧ task = task' ∧ after = after' := by
  rcases List.append_eq_append_iff.mp h with ⟨between, rfl, hrest⟩ | ⟨between, rfl, hrest⟩
  · cases between with
    | nil => exact ⟨(List.append_nil _).symm, List.cons.inj hrest⟩
    | cons t between =>
      obtain ⟨-, rfl⟩ := List.cons.inj hrest
      exact absurd hid.symm (hafter task' (by simp))
  · cases between with
    | nil =>
      obtain ⟨rfl, rfl⟩ := List.cons.inj hrest
      exact ⟨List.append_nil _, rfl, rfl⟩
    | cons t between =>
      obtain ⟨-, rfl⟩ := List.cons.inj hrest
      exact absurd hid (hafter' task (by simp))

/-- Searches of other ids leave the solution of a task as it is. -/
theorem solution?_run_searches {budget : Budget} {stops : Stops} {listed : List Task}
    (h : ∀ t ∈ listed, t.id ≠ task.id) :
    (s.run (searches budget stops listed)).solution? task = s.solution? task := by
  induction listed generalizing s stops with
  | nil => rfl
  | cons first rest ih =>
    obtain ⟨hne, hrest⟩ := List.forall_mem_cons.mp h
    rw [searches]
    cases first.isTiling with
    | true =>
      rw [if_pos rfl]
      exact (ih hrest).trans (congrArg Slot.verified (slot_search_of_ne (Ne.symm hne)))
    | false =>
      rw [if_neg Bool.false_ne_true]
      exact ih hrest

/-- Where a report comes from, and what it tells of then and after any of the later tasks. -/
theorem tellsOf_reportEach {budget : Budget} {stops : Stops} {listed : List Task} {id : String} {report : TaskReport}
    (h : (reportEach budget stops listed s .empty).2.get? id = some report) :
    ∃ before task after, listed = before ++ task :: after ∧ task.id = id ∧ (∀ t ∈ after, t.id ≠ id) ∧
      ∀ rest, rest <+: after → report.TellsOf (s.run (searches budget stops (before ++ task :: rest))) task := by
  have hlisted : ∃ t ∈ listed, t.id = id := by
    by_contra hnone
    rw [get?_reportEach fun t ht hid => hnone ⟨t, ht, hid⟩] at h
    cases h
  obtain ⟨before, task, after, rfl, rfl, hafter⟩ := exists_last hlisted
  rw [get?_reportEach_of_last hafter] at h
  cases h
  refine ⟨before, task, after, rfl, rfl, hafter, fun rest hrest => ?_⟩
  cases htiling : task.isTiling with
  | false =>
    rw [report_of_not_isTiling htiling]
    exact tellsOf_rejected htiling
  | true =>
    have hsearches : searches budget stops (before ++ task :: rest) =
        searches budget stops before ++ [.budget (budget.within (stops before.length))] ++
          .search task :: searches budget (stops.drop before.length).tail rest := by
      rw [searches_append, searches, if_pos htiling, List.append_assoc]
      rfl
    refine tellsOf_report ?_
    rw [hsearches, run_append]
    exact solution?_run_searches fun t ht => hafter t (hrest.subset ht)

end Session

namespace Desk

variable {d d' : Desk}

/-! ### What is printed -/

theorem run_makeDirectories (d : Desk) (p : Path) :
    (Workspace.makeDirectories p : StateM Desk Bool).run d = match d.tree.make? d.current p with
    | some tree => (true, { d with tree })
    | none => (false, d) := by
  show (commit (d.tree.make? d.current p)).run d = _
  cases d.tree.make? d.current p <;> rfl

theorem printed_of_write {p : Path} {text : String} (h : d.perform (do
      unless ← Workspace.writeText (m := StateM Desk) p text do throw (.write p)) = (.ok (), d')) :
    d'.printed = d.printed := by
  rw [perform_bind_lift (run_writeText d p text)] at h
  cases hwrite : d.tree.write? d.current p text <;> rw [hwrite] at h <;> cases h
  rfl

/-- To save a text prints nothing. -/
theorem printed_of_save {p : Path} {text : String} (h : d.perform (Command.save p text) = (.ok (), d')) :
    d'.printed = d.printed := by
  unfold Command.save at h
  cases hparent : p.parent? with
  | none =>
    rw [hparent] at h
    exact printed_of_write h
  | some parent =>
    rw [hparent] at h
    have hmake := run_makeDirectories d parent
    cases htree : d.tree.make? d.current parent with
    | none =>
      rw [htree] at hmake
      cases (perform_bind_lift hmake).symm.trans h
    | some tree =>
      rw [htree] at hmake
      exact printed_of_write (d := { d with tree }) ((perform_bind_lift hmake).symm.trans h)

end Desk

namespace Command

variable {d d' : Desk} {settings : Settings} {stops : Stops} {paths : List Path} {session : Session}
  {reports : Reports} {output : Option Path}

/-! ### Commands that succeed -/

/-- The paths lead to one list of tasks. -/
theorem Loads.unique {listed listed' : List Task} (h : Loads d settings paths listed)
    (h' : Loads d settings paths listed') : listed = listed' := by
  induction h generalizing listed' with
  | nil =>
    cases h'
    rfl
  | cons hload _ ih =>
    cases h' with
    | cons hload' hrest =>
      rw [Except.ok.inj (hload.symm.trans hload'), ih hrest]

/-- Reports come of reading every file. -/
theorem loads_of_reportAll {result : Session × Reports}
    (h : d.perform (reportAll settings stops paths session reports) = (.ok result, d')) :
    ∃ listed, Loads d settings paths listed := by
  induction paths generalizing stops session reports with
  | nil => exact ⟨[], .nil⟩
  | cons path paths ih =>
    rw [reportAll, Desk.perform_bind_lift Desk.run_resolve] at h
    obtain ⟨task, d₁, hload, hrest⟩ := Desk.exists_of_perform_bind h
    rw [Desk.perform_loadTask] at hload
    obtain ⟨htask, rfl⟩ := Prod.mk.inj hload
    obtain ⟨listed, hlisted⟩ := ih hrest
    exact ⟨task :: listed, .cons htask hlisted⟩

theorem loads_of_solveTasks (h : d.perform (solveTasks settings stops paths output) = (.ok (), d')) :
    ∃ listed, Loads d settings paths listed := by
  unfold solveTasks at h
  cases hfile : settings.cacheFile with
  | none =>
    rw [hfile] at h
    obtain ⟨seeds, d₁, hseeds, hrest⟩ := Desk.exists_of_perform_bind h
    cases hseeds
    obtain ⟨result, d₂, hreports, -⟩ := Desk.exists_of_perform_bind hrest
    exact loads_of_reportAll hreports
  | some path =>
    rw [hfile] at h
    have hrest := (Desk.perform_bind_lift Desk.run_loadSolutions).symm.trans h
    obtain ⟨result, d₂, hreports, -⟩ := Desk.exists_of_perform_bind hrest
    exact loads_of_reportAll hreports

/-- The text that goes out is that of the reports. -/
structure Published (d d' : Desk) (output : Option Path) (reports : Reports) : Prop where
  written : ∀ path, output = some path → d'.text? path = some reports.toJson.indentedText
  printed : output = none → d'.printed = d.printed ++ (reports.toJson.indentedText ++ "\n")

theorem published_of_print {d₁ : Desk} (hprinted : d₁.printed = d.printed)
    (h : d₁.perform (liftM (Workspace.print (reports.toJson.indentedText ++ "\n") : StateM Desk Unit)) =
      (.ok (), d')) :
    Published d d' none reports := by
  cases h
  exact ⟨nofun, fun _ => congrArg (· ++ _) hprinted⟩

theorem published_of_publish (h : d.perform (publish settings output session reports) = (.ok (), d')) :
    Published d d' output reports := by
  unfold publish at h
  cases hfile : settings.cacheFile with
  | none =>
    rw [hfile] at h
    cases output with
    | none => exact published_of_print rfl h
    | some path => exact ⟨fun _ heq => Option.some.inj heq ▸ Desk.text?_of_save h, nofun⟩
  | some file =>
    rw [hfile] at h
    obtain ⟨_, d₁, hsave, hrest⟩ := Desk.exists_of_perform_bind h
    cases output with
    | none => exact published_of_print (Desk.printed_of_save hsave) hrest
    | some path => exact ⟨fun _ heq => Option.some.inj heq ▸ Desk.text?_of_save hrest, nofun⟩

/-- Where the solve command succeeds, every file was read, and there is a report under each of their names. Each report
tells of the last file with its name, as the session stands after this file and after any of the files that follow,
and the reports are what is written or printed. -/
theorem solve_reports_agree (h : d.perform (solveTasks settings stops paths output) = (.ok (), d')) :
    ∃ listed reports, Loads d settings paths listed ∧ Published d d' output reports ∧
      (∀ task ∈ listed, ∃ report, reports.get? task.id = some report) ∧
      ∀ id report, (id, report) ∈ reports.entries →
        ∃ before task after, listed = before ++ task :: after ∧ task.id = id ∧ (∀ t ∈ after, t.id ≠ id) ∧
          ∀ rest, rest <+: after →
            report.TellsOf ((startSession d settings).run
              (Session.searches settings.budget stops (before ++ task :: rest))) task := by
  obtain ⟨listed, hlisted⟩ := loads_of_solveTasks h
  rw [perform_solveTasks hlisted] at h
  refine ⟨listed, _, hlisted, published_of_publish h, fun task => Session.exists_report, fun id report hentry => ?_⟩
  exact Session.tellsOf_reportEach (Register.mem_entries_iff.mp hentry)

/-- A solved file, one with its name and without pairs, and one that a quarter turn is known to solve. The report under
the first name says that it is rejected, and holds neither the solution of the first file nor its outputs. That under the
other has an output for a square, and none for a row, which a quarter turn lays across its block. -/
theorem solve_reports_agree_two_names :
    let input : Grid := ⟨1, 2, #[1, 2], by decide, by decide, rfl⟩
    let tiled : Grid := ⟨1, 4, #[1, 2, 1, 2], by decide, by decide, rfl⟩
    let square : Grid := ⟨2, 2, #[1, 2, 3, 4], by decide, by decide, rfl⟩
    let turned : Grid := ⟨2, 4, #[2, 4, 2, 4, 1, 3, 1, 3], by decide, by decide, rfl⟩
    let first : Task := ⟨⟨[⟨input, tiled⟩], [⟨input, none⟩]⟩, "t"⟩
    let last : Task := ⟨⟨[], [⟨input, none⟩]⟩, "t"⟩
    let other : Task := ⟨⟨[⟨square, turned⟩], [⟨square, none⟩, ⟨input, none⟩]⟩, "u"⟩
    let turning : Candidate := ⟨.identity, .rot90 1, .always⟩
    let desk : Desk := ⟨⟨[["a"], ["b"]], [(["a", "t.json"], (toJson first.toExamples).compactText),
      (["b", "t.json"], (toJson last.toExamples).compactText), (["b", "u.json"], (toJson other.toExamples).compactText),
      (["s.json"], (toJson (Register.empty.insert "u" turning : Solutions)).compactText)]⟩, [], ""⟩
    let settings : Settings := ⟨.development, .ofKernel false, .standard, .unlimited, some ⟨"s.json"⟩⟩
    let solved := desk.perform (solveTasks settings .never [⟨"a/t.json"⟩, ⟨"b/t.json"⟩, ⟨"b/u.json"⟩] none)
    solved.1 = .ok () ∧ first.isTiling = true ∧ ∃ reports report report',
      Published desk solved.2 none reports ∧ reports.get? "t" = some report ∧ report.outcome = "rejected" ∧
        report.candidate = none ∧ report.predictions = [] ∧
        reports.get? "u" = some report' ∧ report'.outcome = "solved by identity | rot90(1) | query_true" ∧
          report'.candidate = some turning ∧ report'.predictions = [some turned, none] := by
  intro input tiled square turned first last other turning desk settings solved
  have hok : solved.1 = .ok () := by decide +kernel
  have hloads : Loads desk settings [⟨"a/t.json"⟩, ⟨"b/t.json"⟩, ⟨"b/u.json"⟩] [first, last, other] :=
    .cons (by decide +kernel) (.cons (by decide +kernel) (.cons (by decide +kernel) .nil))
  have hrun : solved = (.ok (), solved.2) := Prod.mk.eta.symm.trans (congrArg (·, solved.2) hok)
  obtain ⟨listed, reports, hlisted, hpublished, hall, htells⟩ := solve_reports_agree hrun
  obtain rfl : listed = [first, last, other] := hlisted.unique hloads
  obtain ⟨report, hreport⟩ := hall last (by simp)
  obtain ⟨report', hreport'⟩ := hall other (by simp)
  have hlast : ∀ {before task after report}, [first, last, other] = before ++ task :: after →
      (∀ t ∈ after, t.id ≠ task.id) → reports.get? task.id = some report →
      report.TellsOf ((startSession desk settings).run
        (Session.searches settings.budget .never (before ++ [task]))) task := by
    intro before task after report hsplit hafter hreport
    obtain ⟨before', task', after', hsplit', hid, hafter', htell⟩ :=
      htells task.id report (Register.mem_entries_iff.mpr hreport)
    obtain ⟨rfl, rfl, -⟩ := Session.eq_of_last (hsplit.symm.trans hsplit') hid.symm hafter (hid ▸ hafter')
    exact htell [] List.nil_prefix
  have htell := hlast (show _ = [first] ++ last :: [other] from rfl) (by decide) hreport
  have htell' := hlast (show _ = [first, last] ++ other :: [] from rfl) (by simp) hreport'
  have hrejected := htell.rejected_iff.mpr rfl
  have hcandidate := (htell'.candidate_eq (by decide +kernel)).trans
    (show _ = some turning by decide +kernel)
  have houtcome := ((htell'.candidate_iff _).mp hcandidate).trans
    (show _ = "solved by identity | rot90(1) | query_true" by decide +kernel)
  have hpredictions : report'.predictions = [some turned, none] := by
    have hpredicts := htell'.predicts _ hcandidate
    obtain ⟨entry, entries, hsquare, hrest, heq⟩ := List.forall₂_cons_left_iff.mp hpredicts
    obtain ⟨entry', entries', hinput, hnil, rfl⟩ := List.forall₂_cons_left_iff.mp hrest
    rw [heq, List.forall₂_nil_left_iff.mp hnil, (hsquare.some_iff turned).mpr (by decide +kernel),
      hinput.none_iff.mpr ⟨.trial (.tileShapeMismatch (1, 2) (2, 1)), by decide +kernel⟩]
  exact ⟨hok, by decide +kernel, reports, report, report', hpublished, hreport, hrejected,
    (htell.of_rejected hrejected).1, (htell.of_rejected hrejected).2, hreport', houtcome, hcandidate, hpredictions⟩

end Command
end Mosaic
