import Mosaic.Proofs.Forms
import Mosaic.Proofs.Reports

/-!
# What is saved is read back

The texts of a value are read as the value, so a text that has been read and written again does not change any
more (`Json.KeepsText`). A file that was written under a path is what the path leads to from then on
(`FileTree.node?_of_write?`), so solutions that were saved are the solutions that are loaded.
-/

namespace Mosaic

/-! ### Texts -/

namespace Json

open Decoded (bind_eq_ok)

variable {α : Type} [JsonForm α] {Valid : α → Prop} {style : Json → String} {text text' : String} {a : α}

/-- The text of the value that a text holds. -/
def rewrite (α : Type) [JsonForm α] (style : Json → String) (text : String) : Decoded String := do
  let a ← decode α text
  return style (toJson a)

/-- Valid values are read back from both of their texts, nothing else is read from any text, and a text that was
rewritten in one of the two styles is rewritten in this style as it is. -/
structure KeepsText (α : Type) [JsonForm α] (Valid : α → Prop) : Prop where
  compact : ∀ a, Valid a → decode α (toJson a).compactText = .ok a
  indented : ∀ a, Valid a → decode α (toJson a).indentedText = .ok a
  valid : ∀ text a, decode α text = .ok a → Valid a
  rewrite_compact : ∀ text text', rewrite α compactText text = .ok text' →
    rewrite α compactText text' = .ok text'
  rewrite_indented : ∀ text text', rewrite α indentedText text = .ok text' →
    rewrite α indentedText text' = .ok text'

theorem rewrite_of_rewrite (hvalid : ∀ text a, decode α text = .ok a → Valid a)
    (hread : ∀ a, Valid a → decode α (style (toJson a)) = .ok a) (h : rewrite α style text = .ok text') :
    rewrite α style text' = .ok text' := by
  obtain ⟨a, ha, hwrite⟩ := exists_of_bind_eq_ok h
  cases hwrite
  exact bind_eq_ok (hread a (hvalid text a ha)) rfl

theorem Faithful.keepsText (h : Faithful α Valid) : KeepsText α Valid := by
  have hcompact : ∀ a, Valid a → decode α (toJson a).compactText = .ok a := fun a ha =>
    decode_of_ofText (ofText_compactText _) (h.read_write a ha)
  have hindented : ∀ a, Valid a → decode α (toJson a).indentedText = .ok a := fun a ha =>
    decode_of_ofText (ofText_indentedText _) (h.read_write a ha)
  have hvalid : ∀ text a, decode α text = .ok a → Valid a := fun text => gives_decode h.gives
  exact ⟨hcompact, hindented, hvalid, fun _ _ => rewrite_of_rewrite hvalid hcompact,
    fun _ _ => rewrite_of_rewrite hvalid hindented⟩

end Json

/-! ### Files -/

namespace FileTree

variable {t t' : FileTree} {place next current : Place} {part : List Char} {parts rest : List (List Char)}
  {p : Path} {text : String}

/-- The directory that one part leads to. -/
def enter? (t : FileTree) (place : Place) (part : List Char) : Option Place :=
  if Path.isIdle part then some place
  else if part = ['.', '.'] then some place.dropLast
  else if t.isDirectory (place ++ [String.ofList part]) then some (place ++ [String.ofList part])
  else none

theorem follow?_cons : t.follow? place (part :: rest) =
    match t.enter? place part with
    | some next => t.follow? next rest
    | none => if rest.isEmpty then (t.file? (place ++ [String.ofList part])).map .file else none := by
  rw [follow?, enter?]
  dsimp only
  split
  · rfl
  · split
    · rfl
    · split <;> rfl

theorem foldlM_enter?_of_follow? (h : t.follow? place parts = some (.directory next)) :
    parts.foldlM t.enter? place = some next := by
  induction parts generalizing place with
  | nil =>
    cases h
    rfl
  | cons part parts ih =>
    rw [follow?_cons] at h
    rw [List.foldlM_cons]
    cases henter : t.enter? place part with
    | some mid =>
      rw [henter] at h
      exact ih h
    | none =>
      -- the last part may lead to a file, but not to a directory
      rw [henter] at h
      dsimp only at h
      split at h
      · cases hfile : t.file? (place ++ [String.ofList part]) <;> rw [hfile] at h <;> cases h
      · cases h

theorem follow?_append (h : parts.foldlM t.enter? place = some next) :
    t.follow? place (parts ++ rest) = t.follow? next rest := by
  induction parts generalizing place with
  | nil =>
    cases h
    rfl
  | cons part parts ih =>
    rw [List.foldlM_cons] at h
    obtain ⟨mid, hmid, h⟩ := Option.bind_eq_some_iff.mp h
    rw [List.cons_append, follow?_cons, hmid]
    exact ih h

/-- No part enters a file, so that a new one leaves the directories as they are. -/
theorem enter?_withFile : (t.withFile place text).enter? = t.enter? := rfl

theorem file?_withFile : (t.withFile place text).file? place = some text := by
  simp [file?, withFile]

/-- How a text is written under a path: the last part names a file, which need not be there, of a directory that
the others lead to. -/
structure Writes (t : FileTree) (current : Place) (p : Path) (name : List Char) (place : Place) : Prop where
  parts : p.parts.dropLast ++ [name] = p.parts
  sound : isSound p = true
  not_idle : Path.isIdle name = false
  not_parent : name ≠ ['.', '.']
  directory : t.follow? (origin current p) p.parts.dropLast = some (.directory place)
  not_directory : t.isDirectory (place ++ [String.ofList name]) = false

theorem exists_of_write? (h : t.write? current p text = some t') :
    ∃ name place, t.Writes current p name place ∧ t' = t.withFile (place ++ [String.ofList name]) text := by
  unfold write? at h
  split at h
  · cases h
  · rename_i name hlast
    obtain ⟨hlast, hsound⟩ := Option.filter_eq_some_iff.mp hlast
    split at h
    · cases h
    · rename_i hname
      simp only [Bool.or_eq_true, decide_eq_true_eq, not_or, Bool.not_eq_true] at hname
      obtain ⟨⟨hidle, hparent⟩, -⟩ := hname
      split at h
      · rename_i place hplace
        dsimp only at h
        split at h
        · cases h
        · cases h
          exact ⟨name, place, ⟨List.dropLast_append_getLast? name hlast, hsound, hidle, hparent, hplace,
            Bool.eq_false_iff.mpr ‹_›⟩, rfl⟩
      · cases h

theorem text_ne_empty (h : Path.isIdle part = false) (hparts : p.parts.dropLast ++ [part] = p.parts) :
    p.text.isEmpty = false := by
  refine Bool.eq_false_iff.mpr fun hempty => ?_
  have htext : p.text = "" := String.isEmpty_iff.mp hempty
  have hp : p.parts = [[]] := by rw [Path.parts, htext]; rfl
  rw [hp] at hparts
  cases hparts
  cases h

/-- A path that a text was written under leads to this text. -/
theorem node?_of_write? (h : t.write? current p text = some t') : t'.node? current p = some (.file text) := by
  obtain ⟨name, place, hwrites, rfl⟩ := exists_of_write? h
  have hbefore := foldlM_enter?_of_follow? hwrites.directory
  have hlast : t.enter? place name = none := by
    simp [enter?, hwrites.not_idle, hwrites.not_parent, hwrites.not_directory]
  rw [← enter?_withFile] at hbefore hlast
  rw [node?, text_ne_empty hwrites.not_idle hwrites.parts, hwrites.sound]
  show follow? _ _ p.parts = _
  rw [← hwrites.parts, follow?_append hbefore, follow?_cons, hlast]
  show Option.map Node.file (file? _ _) = _
  rw [file?_withFile]
  rfl

end FileTree

namespace Desk

variable {d d' : Desk} {p : Path} {text : String}

/-- A command that ends well has come through its first step. -/
theorem exists_of_perform_bind {α β : Type} {y : ExceptT CommandFailure (StateM Desk) α}
    {f : α → ExceptT CommandFailure (StateM Desk) β} {b : β} (h : d.perform (y >>= f) = (.ok b, d')) :
    ∃ a d₁, d.perform y = (.ok a, d₁) ∧ d₁.perform (f a) = (.ok b, d') := by
  cases hy : d.perform y with
  | mk result d₁ =>
    cases result with
    | ok a => exact ⟨a, d₁, rfl, (perform_bind hy).symm.trans h⟩
    | error e =>
      have hrun : y.run.run d = (.error e, d₁) := hy
      rw [perform, ExceptT.run_bind, StateT.run_bind, hrun] at h
      cases h

theorem run_writeText (d : Desk) (p : Path) (text : String) :
    (Workspace.writeText p text : StateM Desk Bool).run d = match d.tree.write? d.current p text with
    | some tree => (true, { d with tree })
    | none => (false, d) := by
  show (commit (d.tree.write? d.current p text)).run d = _
  cases d.tree.write? d.current p text <;> rfl

theorem text?_of_write (h : d.perform (do
      unless ← Workspace.writeText (m := StateM Desk) p text do throw (.write p)) = (.ok (), d')) :
    d'.text? p = some text := by
  rw [perform_bind_lift (run_writeText d p text)] at h
  cases hwrite : d.tree.write? d.current p text with
  | none =>
    rw [hwrite] at h
    cases h
  | some tree =>
    rw [hwrite] at h
    cases h
    rw [text?, FileTree.node?_of_write? hwrite]

/-- A file that was saved holds the text, whatever had to be made for it. -/
theorem text?_of_save (h : d.perform (Command.save p text) = (.ok (), d')) : d'.text? p = some text := by
  unfold Command.save at h
  cases hparent : p.parent? with
  | none =>
    rw [hparent] at h
    exact text?_of_write h
  | some parent =>
    rw [hparent] at h
    obtain ⟨made, d₁, -, hwrite⟩ := exists_of_perform_bind h
    cases made with
    | false => cases hwrite
    | true => exact text?_of_write hwrite

/-- Solutions that were saved are loaded as they were. -/
theorem run_loadSolutions_of_save {solutions : Solutions}
    (h : d.perform (Command.save p (toJson solutions).indentedText) = (.ok (), d')) :
    (Command.loadSolutions p : StateM Desk Solutions).run d' = (solutions, d') := by
  have hread : Json.decode Solutions (toJson solutions).indentedText = .ok solutions :=
    (Register.faithful Candidate.faithful).keepsText.indented solutions trivial
  rw [run_loadSolutions, Desk.solutions, text?_of_save h]
  dsimp only
  rw [hread]
  rfl

end Desk

/-! ### Saved data -/

/-- Every valid grid, pair, test case and file of examples, every candidate, whatever its data, solutions under
any ids, and budgets and figures of 64 bits are read back from their texts, and texts that were rewritten stay as
they are. Solutions that were saved in a file are loaded from it, and loading changes nothing. -/
theorem saved_data_read_back :
    Json.KeepsText Grid Grid.Valid ∧ Json.KeepsText TrainingPair TrainingPair.Valid ∧
    Json.KeepsText TestCase TestCase.Valid ∧ Json.KeepsText Examples Examples.Valid ∧
    (Json.KeepsText Candidate fun _ => True) ∧ (Json.KeepsText Solutions fun _ => True) ∧
    Json.KeepsText Budget Budget.Valid ∧ Json.KeepsText Stats Stats.Valid ∧
    ∀ (d d' : Desk) (path : Path) (solutions : Solutions),
      d.perform (Command.save path (toJson solutions).indentedText) = (.ok (), d') →
        (Command.loadSolutions path : StateM Desk Solutions).run d' = (solutions, d') :=
  ⟨Grid.faithful.keepsText, TrainingPair.faithful.keepsText, TestCase.faithful.keepsText,
    Examples.faithful.keepsText, Candidate.faithful.keepsText, (Register.faithful Candidate.faithful).keepsText,
    Budget.faithful.keepsText, Stats.faithful.keepsText, fun _ _ _ _ => Desk.run_loadSolutions_of_save⟩

/-- Ids with quotes, backslashes and control characters, saved below a directory that is not there yet; a test
case with its output; and a budget written as a list, whose nanoseconds carry when it is rewritten. -/
theorem saved_data_read_back_odd_ids :
    let c : Candidate := ⟨.cropOuter 255, .roll (-128) .cols, .bincountSorted 200⟩
    let solutions : Solutions := (Register.empty.insert "\"a\\b\"" c).insert "line\n\x01\x7fé😀" c
    let desk : Desk := ⟨⟨[["home"]], []⟩, ["home"], ""⟩
    let path : Path := ⟨"../new/./solutions.json"⟩
    let saved := desk.perform (Command.save path (toJson solutions).indentedText)
    let g : Grid := ⟨1, 2, #[0, 9], by decide, by decide, rfl⟩
    let case : TestCase := ⟨g, some g⟩
    let budget : Budget := ⟨none, some ⟨2, 500000000, by decide⟩⟩
    saved.1 = .ok () ∧ saved.2.tree.directories = [["new"], ["home"]] ∧ solutions.size = 2 ∧
      (Command.loadSolutions path : StateM Desk Solutions).run saved.2 = (solutions, saved.2) ∧
      Json.decode TestCase (toJson case).compactText = .ok case ∧
      Json.rewrite Budget Json.compactText " [null, [1, 1500000000]] " = .ok (toJson budget).compactText ∧
      Json.rewrite Budget Json.compactText (toJson budget).compactText = .ok (toJson budget).compactText := by
  intro c solutions desk path saved g case budget
  obtain ⟨-, -, hcase, -, -, -, hbudget, -, hload⟩ := saved_data_read_back
  have hok : saved.1 = .ok () := by decide +kernel
  have hrows : Grid.ofRows [[0, 9]] = .ok g := by decide
  have hg : g.Valid := Grid.valid_iff.mpr (Grid.inPalette_of_ofRows hrows)
  have hrewrite : Json.rewrite Budget Json.compactText " [null, [1, 1500000000]] " =
      .ok (toJson budget).compactText := by decide +kernel
  exact ⟨hok, by decide +kernel, by decide +kernel, hload desk saved.2 path solutions (Prod.ext hok rfl),
    hcase.compact case ⟨hg, Json.forall_mem_some hg⟩, hrewrite, hbudget.rewrite_compact _ _ hrewrite⟩

end Mosaic
