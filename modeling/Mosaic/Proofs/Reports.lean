import Mosaic.Command.Run
import Mosaic.Proofs.Histories
import Mosaic.Workspace.FileTree

/-!
# Reports and the files they are listed under

The solve command reads its files, which changes nothing, searches the accepted tasks in order, and
publishes the reports (`Command.perform_solveTasks`). Tasks are told apart by the names of their files
without directory and extension: a later file replaces the report on an earlier one with the same name, and
a session that has solved the earlier one answers for the later one as it did then. So the report under a
name is about the last file with that name, and its solution about the first one that was solved.
-/

namespace Mosaic

namespace Desk

variable {d d' : Desk} {p : Path} {layout : Layout}

/-! ### Steps of a command -/

section

variable {α β : Type} {a : α} {x : StateM Desk α} {y : ExceptT CommandFailure (StateM Desk) α}
  {f : α → ExceptT CommandFailure (StateM Desk) β}

/-- What a command comes to at a desk, and the desk after it. -/
def perform (d : Desk) (y : ExceptT CommandFailure (StateM Desk) α) : Except CommandFailure α × Desk :=
  y.run.run d

theorem perform_bind (h : d.perform y = (.ok a, d')) : d.perform (y >>= f) = d'.perform (f a) := by
  have hrun : y.run.run d = (.ok a, d') := h
  rw [perform, ExceptT.run_bind, StateT.run_bind, hrun]
  rfl

theorem perform_bind_lift (h : x.run d = (a, d')) :
    d.perform ((x : ExceptT CommandFailure (StateM Desk) α) >>= f) = d'.perform (f a) := by
  refine perform_bind ?_
  show ((x.run d).map (fun a => (Except.ok a : Except CommandFailure α)) id) = _
  rw [h]
  rfl

end

/-! ### What a desk shows -/

def text? (d : Desk) (p : Path) : Option String :=
  match d.tree.node? d.current p with
  | some (.file text) => some text
  | _ => none

/-- The path that a path on the command line stands for. -/
def resolve (d : Desk) (layout : Layout) (p : Path) : Path :=
  if (d.tree.node? d.current p).isSome || p.isAbsolute then p else layout.dataDir.join p

/-- The task that a file holds, or why there is none. -/
def task (d : Desk) (p : Path) : Except CommandFailure Task :=
  match d.text? p with
  | none => .error (.readTask p)
  | some text =>
    match Json.decode Examples text with
    | .error _ => .error (.parseTask p)
    | .ok examples => .ok { examples with id := p.stem?.getD p.text }

/-- The solutions of a file, if it can be read and holds any. -/
def solutions (d : Desk) (p : Path) : Solutions :=
  match d.text? p with
  | none => .empty
  | some text => (Json.decode Solutions text).toOption.getD .empty

theorem run_readText? : (Workspace.readText? p : StateM Desk (Option String)).run d = (d.text? p, d) := by
  show (match d.tree.node? d.current p with
    | some (.file text) => pure (some text)
    | _ => pure none : StateM Desk (Option String)).run d = _
  unfold text?
  split <;> rfl

theorem run_resolve : (layout.resolve p : StateM Desk Path).run d = (d.resolve layout p, d) := by
  show (if (d.tree.node? d.current p).isSome || p.isAbsolute then pure p
    else pure (layout.dataDir.join p) : StateM Desk Path).run d = _
  unfold resolve
  split <;> rfl

theorem perform_loadTask : d.perform (Command.loadTask p) = (d.task p, d) := by
  refine (perform_bind_lift run_readText?).trans ?_
  unfold task
  cases d.text? p with
  | none => rfl
  | some text =>
    dsimp only
    cases Json.decode Examples text <;> rfl

theorem run_loadSolutions : (Command.loadSolutions p : StateM Desk Solutions).run d = (d.solutions p, d) := by
  have hread := run_readText? (d := d) (p := p)
  rw [Command.loadSolutions, StateT.run_bind, hread, solutions]
  cases d.text? p <;> rfl

end Desk

namespace Stops

def drop (n : Nat) (stops : Stops) : Stops := fun i => stops (n + i)

theorem drop_tail (n : Nat) (stops : Stops) : stops.tail.drop n = stops.drop (n + 1) :=
  funext fun i => congrArg stops (Nat.add_right_comm n i 1)

end Stops

/-! ### Reports in order -/

namespace Outcome

variable {o : Outcome} {c : Candidate}

/-- The first letter of its text tells whether a search was successful. -/
def initial : Outcome → Char
  | solved _ => 's'
  | exhausted _ => 'u'
  | budgetExceeded _ => 'b'

theorem head?_append {a b : String} {x : Char} (h : a.toList.head? = some x) :
    (a ++ b).toList.head? = some x := by
  rw [String.toList_append, List.head?_append, h, Option.some_or]

theorem head?_text : o.text.toList.head? = some o.initial := by
  have hsolved : "solved by ".toList.head? = some 's' := by decide +kernel
  have hexhausted : "unsolved after ".toList.head? = some 'u' := by decide +kernel
  have hbudget : "budget exceeded after ".toList.head? = some 'b' := by decide +kernel
  cases o with
  | solved c => exact head?_append hsolved
  | exhausted n => exact head?_append (head?_append hexhausted)
  | budgetExceeded n => exact head?_append (head?_append hbudget)

theorem exists_of_text_eq (h : o.text = (solved c).text) : ∃ d, o = solved d := by
  have hinitial : o.initial = (solved c).initial := by
    rw [← Option.some.injEq, ← head?_text, ← head?_text, h]
  cases o with
  | solved d => exact ⟨d, rfl⟩
  | exhausted n => exact absurd hinitial (show 'u' ≠ 's' by decide)
  | budgetExceeded n => exact absurd hinitial (show 'b' ≠ 's' by decide)

end Outcome

namespace Session

variable {s : Session} {budget : Budget} {stops : Stops} {task : Task} {before after : List Task} {reports : Reports}
  {id : String}

/-- The reports on tasks, solved in order and listed with those before. -/
def reportEach (budget : Budget) : (stops : Stops) → (tasks : List Task) → Session → Reports → Session × Reports
  | _, [], session, reports => (session, reports)
  | stops, task :: rest, session, reports =>
    let (report, session) := (session.withBudget (budget.within (stops 0))).report task
    reportEach budget stops.tail rest session (reports.replace task.id report)

theorem reportEach_append : reportEach budget stops (before ++ after) s reports =
    reportEach budget (stops.drop before.length) after (reportEach budget stops before s reports).1
      (reportEach budget stops before s reports).2 := by
  induction before generalizing stops s reports with
  | nil => exact congrArg (reportEach budget · after s reports) (funext fun i => congrArg stops (Nat.zero_add i).symm)
  | cons task rest ih =>
    rw [List.length_cons, ← Stops.drop_tail]
    exact ih

/-- The report on a task stands until one with the same id comes. -/
theorem get?_reportEach (h : ∀ t ∈ after, t.id ≠ id) :
    (reportEach budget stops after s reports).2.get? id = reports.get? id := by
  induction after generalizing stops s reports with
  | nil => rfl
  | cons task rest ih =>
    obtain ⟨hne, hrest⟩ := List.forall_mem_cons.mp h
    exact (ih hrest).trans (Register.get?_replace.trans (if_neg (Ne.symm hne)))

theorem report_of_isTiling (h : task.isTiling = true) : s.report task =
    (⟨(s.search task).1.text, (s.search task).2.solution? task,
      match (s.search task).1 with
      | .solved _ => (Strategy.tiling.predict (s.search task).2 task).map Except.toOption
      | .exhausted _ | .budgetExceeded _ => []⟩, (s.search task).2) := by
  unfold report
  exact if_pos h

theorem report_of_not_isTiling (h : task.isTiling = false) : s.report task = (.rejected, s) := by
  unfold report
  exact if_neg (ne_true_of_eq_false h)

/-- The searches of the accepted tasks, each within its own limit. -/
def searches (budget : Budget) : (stops : Stops) → (tasks : List Task) → List Event
  | _, [] => []
  | stops, task :: rest => .budget (budget.within (stops 0)) ::
    if task.isTiling then .search task :: searches budget stops.tail rest else searches budget stops.tail rest

theorem searches_append : searches budget stops (before ++ after) =
    searches budget stops before ++ searches budget (stops.drop before.length) after := by
  induction before generalizing stops with
  | nil => exact congrArg (searches budget · after) (funext fun i => congrArg stops (Nat.zero_add i).symm)
  | cons task rest ih =>
    rw [List.cons_append, searches, searches, ih, Stops.drop_tail, List.length_cons]
    split <;> rfl

theorem reportEach_fst : (reportEach budget stops before s reports).1 = s.run (searches budget stops before) := by
  induction before generalizing stops s reports with
  | nil => rfl
  | cons task rest ih =>
    rw [reportEach, searches]
    show (reportEach budget stops.tail rest ((s.withBudget _).report task).2 _).1 = _
    rw [ih]
    cases h : task.isTiling with
    | true =>
      rw [report_of_isTiling h, if_pos rfl]
      rfl
    | false =>
      rw [report_of_not_isTiling h, if_neg Bool.false_ne_true]
      rfl

theorem tasks_searches : tasks (searches budget stops before) = before.filter (·.isTiling) := by
  induction before generalizing stops with
  | nil => rfl
  | cons task rest ih =>
    rw [searches]
    cases h : task.isTiling with
    | true =>
      rw [if_pos rfl, List.filter_cons_of_pos h]
      exact congrArg (task :: ·) ih
    | false =>
      rw [if_neg Bool.false_ne_true, List.filter_cons_of_neg (by simp [h])]
      exact ih

theorem tasks_concat_budget {events : List Event} : tasks (events ++ [.budget budget]) = tasks events := by
  simp [tasks, Event.task?]

theorem get?_reportEach_of_last (h : ∀ t ∈ after, t.id ≠ task.id) :
    (reportEach budget stops (before ++ task :: after) s reports).2.get? task.id =
      some ((s.run (searches budget stops before ++ [.budget (budget.within (stops before.length))])).report task).1 := by
  rw [reportEach_append, reportEach_fst, run_concat]
  exact (get?_reportEach h).trans (Register.get?_replace.trans (if_pos rfl))

theorem exists_report (h : task ∈ before) :
    ∃ report, (reportEach budget stops before s reports).2.get? task.id = some report := by
  induction before generalizing stops s reports task with
  | nil => cases h
  | cons first rest ih =>
    by_cases hlater : ∃ t ∈ rest, t.id = task.id
    · obtain ⟨t, ht, hid⟩ := hlater
      rw [← hid]
      exact ih ht
    · have hne : ∀ t ∈ rest, t.id ≠ task.id := fun t ht hid => hlater ⟨t, ht, hid⟩
      have hfirst : task = first := (List.mem_cons.mp h).resolve_right fun hrest => hne task hrest rfl
      subst hfirst
      exact ⟨_, (get?_reportEach hne).trans (Register.get?_replace.trans (if_pos rfl))⟩

/-- A solved task has an output, or none, for every test input. -/
theorem length_predictions {c : Candidate} (htiling : task.isTiling = true)
    (h : (s.report task).1.outcome = (Outcome.solved c).text) :
    (s.report task).1.predictions.length = task.test.length := by
  rw [report_of_isTiling htiling] at h ⊢
  obtain ⟨found, hfound⟩ := Outcome.exists_of_text_eq h
  simp only [hfound, Strategy.predict, List.length_map]

end Session

namespace Command

variable {d : Desk} {settings : Settings} {stops : Stops} {paths : List Path} {listed : List Task}
  {session : Session} {reports : Reports} {output : Option Path}

/-- The tasks that the paths of a command line lead to. -/
def Loads (d : Desk) (settings : Settings) (paths : List Path) (listed : List Task) : Prop :=
  List.Forall₂ (fun path task => d.task (d.resolve settings.layout path) = .ok task) paths listed

theorem perform_reportAll (h : Loads d settings paths listed) :
    d.perform (reportAll settings stops paths session reports) =
      (.ok (Session.reportEach settings.budget stops listed session reports), d) := by
  induction h generalizing stops session reports with
  | nil => rfl
  | @cons path task paths listed hload _ ih =>
    refine (Desk.perform_bind_lift Desk.run_resolve).trans ?_
    refine (Desk.perform_bind (Desk.perform_loadTask.trans (by rw [hload]))).trans ?_
    exact ih

def startSession (d : Desk) (settings : Settings) : Session :=
  ((Session.new settings.catalog).withBudget settings.budget).withSeeds
    ((settings.cacheFile.map d.solutions).getD .empty)

theorem startSession_eq_run : startSession d settings = (Session.new settings.catalog).run
    [.budget settings.budget, .seed ((settings.cacheFile.map d.solutions).getD .empty)] := rfl

theorem perform_solveTasks (h : Loads d settings paths listed) :
    d.perform (solveTasks settings stops paths output) =
      d.perform (publish settings output
        (Session.reportEach settings.budget stops listed (startSession d settings) .empty).1
        (Session.reportEach settings.budget stops listed (startSession d settings) .empty).2) := by
  unfold solveTasks startSession
  cases settings.cacheFile with
  | none =>
    refine (Desk.perform_bind (perform_reportAll h)).trans ?_
    rfl
  | some path =>
    refine (Desk.perform_bind_lift Desk.run_loadSolutions).trans ?_
    refine (Desk.perform_bind (perform_reportAll h)).trans ?_
    rfl

/-- What the solve command publishes has a report under the name of every file. That of an accepted file
after which no other with its name comes is about this file: if it is solved, there is an output for each of
its test inputs, and the solution reproduces every training pair of the file, if the accepted files with
that name before have its training pairs. This is so whichever searches find their time limit reached. -/
theorem solve_reports_last (h : Loads d settings paths listed) (output : Option Path) (stops : Stops) :
    ∃ session reports,
      d.perform (solveTasks settings stops paths output) = d.perform (publish settings output session reports) ∧
      (∀ task ∈ listed, ∃ report, reports.get? task.id = some report) ∧
      ∀ before task after, listed = before ++ task :: after → task.isTiling = true →
        (∀ t ∈ after, t.id ≠ task.id) →
        ∃ report, reports.get? task.id = some report ∧
          ((∀ t ∈ before, t.isTiling = true → t.id = task.id → t.train = task.train) →
            ∀ c, report.candidate = some c → c.Solves task) ∧
          ∀ c, report.outcome = (Outcome.solved c).text → report.predictions.length = task.test.length := by
  refine ⟨_, _, perform_solveTasks h, fun task => Session.exists_report, ?_⟩
  intro before task after hsplit htiling hafter
  refine ⟨_, hsplit ▸ Session.get?_reportEach_of_last hafter, fun hbefore c hc => ?_, fun c hc => ?_⟩
  · -- the session has searched just the accepted files before
    rw [Session.report_of_isTiling htiling, startSession_eq_run, ← Session.run_append] at hc
    refine Session.solves_of_get? (fun t ht hid => ?_) hc
    replace ht : t ∈ tasks (Session.searches settings.budget stops before ++ [.budget _]) := ht
    rw [Session.tasks_concat_budget, Session.tasks_searches] at ht
    obtain ⟨hmem, htile⟩ := List.mem_filter.mp ht
    exact hbefore t hmem htile hid
  · exact Session.length_predictions htiling hc

/-- Two files with different names, and a third with the name of the first and the same pairs: the report
under that name has the outputs for the third. The search for the second finds the second of its time limit over
at once. -/
theorem solve_reports_last_three :
    let input : Grid := ⟨1, 2, #[1, 2], by decide, by decide, rfl⟩
    let output : Grid := ⟨1, 4, #[1, 2, 1, 2], by decide, by decide, rfl⟩
    let task (id : String) (test : List TestCase) : Task := ⟨⟨[⟨input, output⟩], test⟩, id⟩
    let file (task : Task) : String := (toJson task.toExamples).compactText
    let desk : Desk := ⟨⟨[["a"], ["b"]], [(["a", "t.json"], file (task "t" [⟨input, none⟩])),
      (["a", "u.json"], file (task "u" [])), (["b", "t.json"], file (task "t" []))]⟩, [], ""⟩
    let settings : Settings :=
      ⟨.development, .ofKernel false, .standard, ⟨none, some ⟨1, 0, by decide⟩⟩, none⟩
    let stops : Stops := fun n => if n = 1 then some 0 else none
    let listed := [task "t" [⟨input, none⟩], task "u" [], task "t" []]
    Loads desk settings [⟨"a/t.json"⟩, ⟨"a/u.json"⟩, ⟨"b/t.json"⟩] listed ∧
      ∃ session reports,
        desk.perform (solveTasks settings stops [⟨"a/t.json"⟩, ⟨"a/u.json"⟩, ⟨"b/t.json"⟩] none) =
          desk.perform (publish settings none session reports) ∧
        ∃ report, reports.get? "t" = some report ∧ ∀ c, report.candidate = some c → c.Solves (task "t" []) := by
  intro input output task file desk settings stops listed
  have hloads : Loads desk settings [⟨"a/t.json"⟩, ⟨"a/u.json"⟩, ⟨"b/t.json"⟩] listed :=
    .cons (by decide +kernel) (.cons (by decide +kernel) (.cons (by decide +kernel) .nil))
  obtain ⟨session, reports, hrun, -, hreports⟩ := solve_reports_last hloads none stops
  have htiling : (task "t" []).isTiling = true := by decide +kernel
  obtain ⟨report, hreport, hsolves, -⟩ :=
    hreports [task "t" [⟨input, none⟩], task "u" []] (task "t" []) [] rfl htiling (by simp)
  refine ⟨hloads, session, reports, hrun, report, hreport, hsolves fun t ht _ _ => ?_⟩
  rcases List.mem_pair.mp ht with rfl | rfl <;> rfl

/-- Of two files with the same name the later one gets the solution of the earlier one, which does not
reproduce its pair, and the earlier one gets no output for its test input. -/
theorem solve_reports_same_name :
    let kept : Task := ⟨⟨[⟨⟨1, 3, #[1, 2, 1], by decide, by decide, rfl⟩,
      ⟨1, 6, #[1, 2, 1, 1, 2, 1], by decide, by decide, rfl⟩⟩],
      [⟨⟨1, 3, #[4, 5, 6], by decide, by decide, rfl⟩, none⟩]⟩, "t"⟩
    let flipped : Task := ⟨⟨[⟨⟨1, 3, #[1, 2, 3], by decide, by decide, rfl⟩,
      ⟨1, 6, #[3, 2, 1, 3, 2, 1], by decide, by decide, rfl⟩⟩], []⟩, "t"⟩
    let desk : Desk := ⟨⟨[["a"], ["b"]], [(["a", "t.json"], (toJson kept.toExamples).compactText),
      (["b", "t.json"], (toJson flipped.toExamples).compactText)]⟩, [], ""⟩
    let settings : Settings := ⟨.development, .ofKernel false, .standard, .unlimited, none⟩
    let reports := (Session.reportEach settings.budget .never [kept, flipped] (startSession desk settings) .empty).2
    Loads desk settings [⟨"a/t.json"⟩, ⟨"b/t.json"⟩] [kept, flipped] ∧
      kept.isTiling = true ∧ flipped.isTiling = true ∧
      (∃ session, desk.perform (solveTasks settings .never [⟨"a/t.json"⟩, ⟨"b/t.json"⟩] none) =
        desk.perform (publish settings none session reports)) ∧
      ∃ report c, reports.get? "t" = some report ∧ report.outcome = (Outcome.solved c).text ∧
        report.candidate = some c ∧ ¬c.Solves flipped ∧
        report.predictions.length ≠ kept.test.length := by
  intro kept flipped desk settings reports
  have hloads : Loads desk settings [⟨"a/t.json"⟩, ⟨"b/t.json"⟩] [kept, flipped] :=
    .cons (by decide +kernel) (.cons (by decide +kernel) .nil)
  have hreport : reports.get? "t" = some ⟨(Outcome.solved ⟨.identity, .identity, .always⟩).text,
      some ⟨.identity, .identity, .always⟩, []⟩ := by decide +kernel
  refine ⟨hloads, by decide +kernel, by decide +kernel, ⟨_, perform_solveTasks hloads⟩, _, _, hreport, rfl, rfl,
    by decide +kernel, by decide⟩

end Command
end Mosaic
