import Mosaic.Json.Decode
import Mosaic.Proofs.Spellings

/-!
# Readers and writers

A writer and a reader agree (`Json.Agrees`) on the values that are valid if what is written of a valid value is
read as this value, and if nothing else is ever read. The first half is shown part by part as the value is
written; the second half is a property of whatever a reader gives (`Decoded.Gives`), which is carried through its
steps.
-/

namespace Mosaic

/-! ### What a reader gives -/

namespace Decoded

variable {α β : Type} {x : Decoded α} {f : α → Decoded β} {P : α → Prop} {Q : β → Prop}

/-- The value has the property, if there is one. -/
def Gives (x : Decoded α) (P : α → Prop) : Prop := ∀ a, x = .ok a → P a

theorem gives_true : Gives x fun _ => True := fun _ _ => trivial

theorem gives_ok {a : α} (h : P a) : Gives (.ok a) P := by
  intro b hb
  cases hb
  exact h

theorem gives_error {e : ReadError} : Gives (.error e) P := fun _ h => nomatch h

theorem bind_eq_ok {a : α} {b : β} (hx : x = .ok a) (hf : f a = .ok b) : x >>= f = .ok b := by
  rw [hx]
  exact hf

theorem Gives.bind (hx : Gives x P) (hf : ∀ a, P a → Gives (f a) Q) : Gives (x >>= f) Q := by
  intro b hb
  cases x with
  | error e => cases hb
  | ok a => exact hf a (hx a rfl) b hb

theorem Gives.map {f : α → β} (hx : Gives x P) (hf : ∀ a, P a → Q (f a)) : Gives (f <$> x) Q := by
  intro b hb
  cases x with
  | error e => cases hb
  | ok a =>
    cases hb
    exact hf a (hx a rfl)

end Decoded

namespace Json

open Decoded

variable {α σ : Type} {write : α → Json} {read : Scan → Decoded α} {Valid : α → Prop}

/-- What is written of a valid value is read as this value, and only valid values are read. -/
structure Agrees (write : α → Json) (read : Scan → Decoded α) (Valid : α → Prop) : Prop where
  read_write : ∀ a, Valid a → read (write a).scan = .ok a
  gives : ∀ value, Gives (read value) Valid

/-- The agreement of a type's own writer and reader. -/
abbrev Faithful (α : Type) [JsonForm α] (Valid : α → Prop) : Prop :=
  Agrees (toJson : α → Json) JsonForm.ofScan Valid

theorem forall_mem_none : ∀ a ∈ (none : Option α), Valid a := fun a h => absurd h (Option.not_mem_none a)

theorem forall_mem_some {a : α} (h : Valid a) : ∀ b ∈ some a, Valid b := by
  rintro b ⟨⟩
  exact h

/-! ### Numbers, lists and options -/

theorem agrees_nat {bound : Nat} : Agrees (fun n : Nat => .int n) (Scan.natBelow bound) (· < bound) where
  read_write n h := if_pos h
  gives value := by
    unfold Scan.natBelow
    split
    · split
      · exact gives_ok ‹_›
      · exact gives_error
    · exact gives_error

theorem agrees_int {low high : Int} :
    Agrees Json.int (Scan.intWithin low high) fun i => low ≤ i ∧ i < high where
  read_write i h := if_pos h
  gives value := by
    unfold Scan.intWithin
    split
    · split
      · exact gives_ok ‹_›
      · exact gives_error
    · exact gives_error

theorem Agrees.readItems (h : Agrees write read Valid) {as : List α} (has : ∀ a ∈ as, Valid a) :
    Scan.readItems read (scanItems (as.map write)) = .ok as := by
  induction as with
  | nil => rfl
  | cons a rest ih =>
    obtain ⟨ha, hrest⟩ := List.forall_mem_cons.mp has
    exact bind_eq_ok (h.read_write a ha) (bind_eq_ok (ih hrest) rfl)

theorem gives_readItems (h : ∀ value, Gives (read value) Valid) {items : List Scan} :
    Gives (Scan.readItems read items) fun as => ∀ a ∈ as, Valid a := by
  induction items with
  | nil => exact gives_ok (List.forall_mem_nil _)
  | cons item rest ih =>
    exact (h item).bind fun a ha => ih.bind fun as has => gives_ok (List.forall_mem_cons.mpr ⟨ha, has⟩)

theorem Agrees.list (h : Agrees write read Valid) :
    Agrees (fun as => .arr (as.map write)) (Scan.asList read) fun as => ∀ a ∈ as, Valid a where
  read_write as has := h.readItems has
  gives value := by
    unfold Scan.asList
    split
    · exact gives_readItems h.gives
    · exact gives_error

/-- A value, or `null` in its place. -/
def orNull (write : α → Json) : Option α → Json
  | none => .null
  | some a => write a

/-- A value that is there must not look like one that is missing. -/
theorem Agrees.option (h : Agrees write read Valid) (hnull : ∀ a, (write a).scan ≠ .null) :
    Agrees (orNull write) (Scan.asOption read) fun o => ∀ a ∈ o, Valid a where
  read_write o ho := by
    cases o with
    | none => rfl
    | some a =>
      have hread : Scan.asOption read (write a).scan = some <$> read (write a).scan := by
        unfold Scan.asOption
        split
        · exact absurd ‹_› (hnull a)
        · rfl
      show Scan.asOption read (write a).scan = _
      rw [hread, h.read_write a (ho a rfl)]
      rfl
  gives value := by
    unfold Scan.asOption
    split
    · exact gives_ok forall_mem_none
    · exact (h.gives _).map fun a => forall_mem_some

/-! ### Records -/

section

variable {fields : Scan.Fields σ} {seen : σ → Option α} {put : α → σ → σ} {key : String} {value : Scan}
  {a : α} {draft : σ} {members : List (Option String × Scan)} {Good : σ → Prop}

theorem readMembers_once {draft' : σ} (hfield : fields key = some (Scan.once seen read put))
    (hseen : seen draft = none) (hread : read value = .ok a)
    (hrest : Scan.readMembers fields members (put a draft) = .ok draft') :
    Scan.readMembers fields ((some key, value) :: members) draft = .ok draft' := by
  have hput : Scan.once seen read put value draft = .ok (put a draft) := by
    rw [Scan.once, hseen, hread]
    rfl
  rw [Scan.readMembers, hfield]
  exact bind_eq_ok hput hrest

theorem gives_once (hread : Gives (read value) Valid) (hput : ∀ a, Valid a → Good (put a draft)) :
    Gives (Scan.once seen read put value draft) Good := by
  unfold Scan.once
  split
  · exact gives_error
  · exact hread.bind fun a ha => gives_ok (hput a ha)

/-- Every field keeps the property of a draft. -/
def Keeps (fields : Scan.Fields σ) (Good : σ → Prop) : Prop :=
  ∀ key field, fields key = some field → ∀ value draft, Good draft → Gives (field value draft) Good

theorem gives_readMembers (hfields : Keeps fields Good) (hdraft : Good draft) :
    Gives (Scan.readMembers fields members draft) Good := by
  induction members generalizing draft with
  | nil => exact gives_ok hdraft
  | cons member rest ih =>
    obtain ⟨_ | key, value⟩ := member
    · exact gives_error
    · unfold Scan.readMembers
      split
      · rename_i field hfield
        -- the field may change the draft, so the induction is on any draft with the property
        exact (hfields key field hfield value draft hdraft).bind fun draft' => ih
      · split
        · exact ih hdraft
        · exact gives_error

theorem valid_getD {o : Option α} (h : ∀ a ∈ o, Valid a) (hmissing : Valid a) : Valid (o.getD a) := by
  cases o with
  | none => exact hmissing
  | some b => exact h b rfl

theorem gives_required {o : Option α} (h : ∀ a ∈ o, Valid a) : Gives (Scan.required o) Valid := by
  cases o with
  | none => exact gives_error
  | some a => exact gives_ok (h a rfl)

end

/-! ### Records as lists -/

section

variable {items : List Scan} {a : α}

theorem gives_element (h : ∀ value, Gives (read value) Valid) :
    Gives (Scan.element read items) fun r => Valid r.1 := by
  cases items with
  | nil => exact gives_error
  | cons item rest => exact (h item).bind fun a ha => gives_ok ha

theorem gives_elementOr (h : ∀ value, Gives (read value) Valid) (hmissing : Valid a) :
    Gives (Scan.elementOr a read items) fun r => Valid r.1 := by
  cases items with
  | nil => exact gives_ok hmissing
  | cons item rest => exact (h item).bind fun a ha => gives_ok ha

theorem gives_complete (h : Valid a) : Gives (Scan.complete a items) Valid := by
  cases items with
  | nil => exact gives_ok h
  | cons => exact gives_error

end

/-! ### Texts -/

section

variable [JsonForm α] {j : Json} {a : α} {text : String}

theorem decode_of_ofText (htext : Scan.ofText text = (j.scan, some []))
    (h : (JsonForm.ofScan j.scan : Decoded α) = .ok a) : decode α text = .ok a := by
  simp [decode, htext, h]

theorem gives_decode (h : ∀ value, Gives (JsonForm.ofScan value : Decoded α) Valid) :
    Gives (decode α text) Valid := by
  unfold decode
  have hvalue := h (Scan.ofText text).1
  dsimp only
  split
  · exact gives_error
  · rename_i hok _
    split
    · exact gives_ok (hvalue _ hok)
    · exact gives_error
  · exact gives_error

end

end Json
end Mosaic
