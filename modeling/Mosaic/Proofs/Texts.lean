import Mosaic.Proofs.Orders
import Mosaic.Proofs.Spellings
import Mosaic.Search.Outcome

/-!
# Candidates by their texts

The text of a stage is its name, with its data in brackets where it has any, and the text of a candidate has bars
between those of its stages. Neither names nor data hold a bar or an opening bracket, so a text can be taken apart in
one way only, and different candidates have different texts.
-/

namespace Mosaic

/-! ### Separators -/

/-- What stands before and after the first `x` of a list. -/
theorem append_cons_inj {α : Type} {x : α} {a b r s : List α} (ha : x ∉ a) (hb : x ∉ b)
    (h : a ++ x :: r = b ++ x :: s) : a = b ∧ r = s := by
  induction a generalizing b with
  | nil =>
    cases b with
    | nil => exact ⟨rfl, (List.cons.inj h).2⟩
    | cons y b => exact absurd (List.cons.inj h).1 (List.ne_of_not_mem_cons hb)
  | cons y a ih =>
    cases b with
    | nil => exact absurd (List.cons.inj h).1.symm (List.ne_of_not_mem_cons ha)
    | cons z b =>
      obtain ⟨hhead, htail⟩ := List.cons.inj h
      obtain ⟨rfl, hrest⟩ := ih (List.not_mem_of_not_mem_cons ha) (List.not_mem_of_not_mem_cons hb) htail
      exact ⟨congrArg (· :: a) hhead, hrest⟩

/-! ### Numbers -/

theorem natRepr_injective : Nat.repr.Injective := by
  intro m n h
  have hread := congrArg (fun s => Nat.ofDigitChars 10 s.toList 0) h
  simpa only [Nat.toList_repr, Nat.ofDigitChars_toDigits (b := 10) (by decide) (by decide)] using hread

theorem isDigit_of_mem_natRepr {c : Char} {n : Nat} (h : c ∈ n.repr.toList) : c.isDigit = true :=
  Nat.isDigit_of_mem_toDigits (by decide) (by decide) (Nat.toList_repr ▸ h)

theorem ne_natRepr {s : String} {c : Char} (h : c ∈ s.toList) (hc : c.isDigit = false) (n : Nat) : s ≠ n.repr := by
  rintro rfl
  rw [isDigit_of_mem_natRepr h] at hc
  cases hc

theorem intRepr_injective : Int.repr.Injective := by
  have hsign : ∀ m n : Nat, "-" ++ m.repr ≠ n.repr := fun m =>
    ne_natRepr (c := '-') (by rw [String.toList_append]; exact List.mem_append_left _ (by decide)) (by decide)
  intro i j h
  rw [Int.repr_eq_if, Int.repr_eq_if] at h
  split at h
  · split at h
    · have hnat := natRepr_injective h
      omega
    · exact absurd h.symm (hsign _ _)
  · split at h
    · exact absurd h (hsign _ _)
    · have hnat := natRepr_injective ((String.append_right_inj "-").mp h)
      omega

/-! ### Names and data -/

/-- Neither a bar nor an opening bracket is in the text. -/
def Plain (s : String) : Prop := ∀ c ∈ s.toList, c ≠ '|' ∧ c ≠ '('

instance (s : String) : Decidable (Plain s) := List.decidableBAll (fun c => c ≠ '|' ∧ c ≠ '(') s.toList

namespace Plain

variable {a b : String}

theorem append (ha : Plain a) (hb : Plain b) : Plain (a ++ b) := by
  intro c hc
  rw [String.toList_append] at hc
  rcases List.mem_append.mp hc with hc | hc
  · exact ha c hc
  · exact hb c hc

theorem natRepr (n : Nat) : Plain n.repr := by
  intro c hc
  have hdigit := isDigit_of_mem_natRepr hc
  exact ⟨Json.ne_of_isDigit hdigit (by decide), Json.ne_of_isDigit hdigit (by decide)⟩

theorem intRepr (i : Int) : Plain i.repr := by
  rw [Int.repr_eq_if]
  split
  · exact natRepr _
  · exact append (by decide) (natRepr _)

theorem not_mem_bar (h : Plain a) : '|' ∉ a.toList := fun hmem => (h _ hmem).1 rfl

theorem not_mem_bracket (h : Plain a) : '(' ∉ a.toList := fun hmem => (h _ hmem).2 rfl

end Plain

/-- A name with its data in brackets, if it has any. -/
def bracketed (name : String) : Option String → String
  | none => name
  | some data => name ++ "(" ++ data ++ ")"

variable {a b r s : String} {x y : Option String}

theorem toList_bracketed_some {data : String} :
    (bracketed a (some data)).toList = a.toList ++ '(' :: (data ++ ")").toList := by
  simp only [bracketed, String.toList_append, List.append_assoc]
  rfl

theorem bracketed_inj (ha : Plain a) (hb : Plain b) (h : bracketed a x = bracketed b y) : a = b ∧ x = y := by
  have hlist := congrArg String.toList h
  cases x with
  | none =>
    cases y with
    | none => exact ⟨h, rfl⟩
    | some data =>
      rw [toList_bracketed_some] at hlist
      exact absurd (hlist ▸ List.mem_append_right _ List.mem_cons_self) ha.not_mem_bracket
  | some data =>
    rw [toList_bracketed_some] at hlist
    cases y with
    | none => exact absurd (hlist ▸ List.mem_append_right _ List.mem_cons_self) hb.not_mem_bracket
    | some data' =>
      rw [toList_bracketed_some] at hlist
      obtain ⟨hname, hdata⟩ := append_cons_inj ha.not_mem_bracket hb.not_mem_bracket hlist
      have hdata := (String.append_left_inj ")").mp (String.toList_injective hdata)
      exact ⟨String.toList_injective hname, congrArg some hdata⟩

theorem not_mem_bar_bracketed (ha : Plain a) (hx : ∀ data, x = some data → Plain data) :
    '|' ∉ (bracketed a x).toList := by
  cases x with
  | none => exact ha.not_mem_bar
  | some data =>
    rw [toList_bracketed_some, String.toList_append]
    have hdata := (hx data rfl).not_mem_bar
    simp [ha.not_mem_bar, hdata]

theorem bar_inj (ha : '|' ∉ a.toList) (hb : '|' ∉ b.toList) (h : a ++ " | " ++ r = b ++ " | " ++ s) :
    a = b ∧ r = s := by
  have hlist : (a.toList ++ [' ']) ++ '|' :: (" " ++ r).toList = (b.toList ++ [' ']) ++ '|' :: (" " ++ s).toList := by
    have h := congrArg String.toList h
    simpa [String.toList_append] using h
  obtain ⟨hbefore, hafter⟩ := append_cons_inj (by simp [ha]) (by simp [hb]) hlist
  have hrest := (String.append_right_inj " ").mp (String.toList_injective hafter)
  exact ⟨String.toList_injective (List.append_cancel_right hbefore), hrest⟩

/-! ### Stages -/

namespace Preprocess

def data? : Preprocess → Option String
  | identity => none
  | cropInner t | cropOuter t => some t.toNat.repr

theorem text_eq (p : Preprocess) : p.text = bracketed p.name p.data? := by
  cases p <;> rfl

theorem plain_name (p : Preprocess) : Plain p.name := by
  cases p <;> simp only [name] <;> decide

theorem plain_data {p : Preprocess} {data : String} (h : p.data? = some data) : Plain data := by
  cases p with
  | identity => cases h
  | cropInner t | cropOuter t =>
    cases h
    exact .natRepr _

theorem text_injective : text.Injective := by
  intro p q h
  rw [text_eq, text_eq] at h
  obtain ⟨hname, hdata⟩ := bracketed_inj p.plain_name q.plain_name h
  cases p <;> cases q <;> simp_all [name, data?, natRepr_injective.eq_iff, UInt8.toNat_inj]

end Preprocess

namespace Query

def data? : Query → Option String
  | color n | bincount n | bincountSorted n => some n.toNat.repr
  | _ => none

theorem text_eq (q : Query) : q.text = bracketed q.name q.data? := by
  cases q <;> rfl

theorem plain_name (q : Query) : Plain q.name := by
  cases q <;> simp only [name] <;> decide

theorem text_injective : text.Injective := by
  intro q r h
  rw [text_eq, text_eq] at h
  obtain ⟨hname, hdata⟩ := bracketed_inj q.plain_name r.plain_name h
  cases q <;> cases r <;> simp_all [name, data?, natRepr_injective.eq_iff, UInt8.toNat_inj]

end Query

namespace ColorSource

theorem plain_text (s : ColorSource) : Plain s.text := by
  cases s with
  | fixed color => exact .natRepr _
  | _ => decide

theorem text_injective : text.Injective := by
  have hname : ∀ name n, '_' ∈ name.toList → name ≠ Nat.repr n := fun name n h => ne_natRepr h (by decide) n
  intro s t h
  cases s with
  | fixed a =>
    cases t with
    | fixed b => exact congrArg fixed (UInt8.toNat_inj.mp (natRepr_injective h))
    | _ => exact absurd h.symm (hname _ _ (by decide))
  | _ =>
    cases t with
    | fixed b => exact absurd h (hname _ _ (by decide))
    | _ => first | rfl | exact absurd h (by decide)

end ColorSource

namespace Transform

def data? : Transform → Option String
  | identity | invertColor => none
  | swapAxes => some "0, 1"
  | flip axis => some axis.number.repr
  | roll shift axis => some (shift.toInt.repr ++ ", " ++ axis.number.repr)
  | rotateLoop s | rotateLoopRows s | rotateLoopCols s => some s.toInt.repr
  | rot90 k => some k.toNat.repr
  | flipLoop s | flipLoopRows s | flipLoopCols s => some s.toNat.repr
  | invert source => some source.text

theorem text_eq (t : Transform) : t.text = bracketed t.name t.data? := by
  cases t <;> rfl

theorem plain_name (t : Transform) : Plain t.name := by
  cases t <;> simp only [name] <;> decide

theorem plain_data {t : Transform} {data : String} (h : t.data? = some data) : Plain data := by
  cases t with
  | identity | invertColor => cases h
  | swapAxes => cases h; decide
  | roll shift axis => cases h; exact .append (.append (.intRepr _) (by decide)) (.natRepr _)
  | rotateLoop s | rotateLoopRows s | rotateLoopCols s => cases h; exact .intRepr _
  | flip _ | rot90 _ | flipLoop _ | flipLoopRows _ | flipLoopCols _ => cases h; exact .natRepr _
  | invert source => cases h; exact source.plain_text

/-- The number of an axis is one digit, so the shift before it ends in one place. -/
theorem roll_data_inj {s t : Int8} {a b : Axis} :
    s.toInt.repr ++ ", " ++ a.number.repr = t.toInt.repr ++ ", " ++ b.number.repr ↔ s = t ∧ a = b := by
  refine ⟨fun h => ?_, fun ⟨hs, ha⟩ => hs ▸ ha ▸ rfl⟩
  have hlist := congrArg String.toList h
  rw [String.toList_append, String.toList_append (t := b.number.repr)] at hlist
  have hlength : a.number.repr.toList.length = b.number.repr.toList.length := by cases a <;> cases b <;> decide
  obtain ⟨hshift, haxis⟩ := List.append_inj' hlist hlength
  have hshift := (String.append_left_inj ", ").mp (String.toList_injective hshift)
  exact ⟨Int8.toInt_inj.mp (intRepr_injective hshift),
    Axis.number_injective (natRepr_injective (String.toList_injective haxis))⟩

theorem text_injective : text.Injective := by
  intro t u h
  rw [text_eq, text_eq] at h
  obtain ⟨hname, hdata⟩ := bracketed_inj t.plain_name u.plain_name h
  cases t <;> cases u <;>
    simp_all [name, data?, natRepr_injective.eq_iff, intRepr_injective.eq_iff, roll_data_inj, UInt8.toNat_inj,
      Int8.toInt_inj, Axis.number_injective.eq_iff, ColorSource.text_injective.eq_iff]

end Transform

namespace Candidate

/-- The text of a candidate tells which candidate it is. -/
theorem text_injective : text.Injective := by
  intro c d h
  have hbars : ∀ c : Candidate,
      c.text = c.preprocess.text ++ " | " ++ (c.transform.text ++ " | " ++ c.query.text) := fun c => by
    show _ ++ " | " ++ _ ++ " | " ++ _ = _
    simp only [String.append_assoc]
    rfl
  have hpreprocess : ∀ p : Preprocess, '|' ∉ p.text.toList := fun p =>
    p.text_eq ▸ not_mem_bar_bracketed p.plain_name fun _ => Preprocess.plain_data
  have htransform : ∀ t : Transform, '|' ∉ t.text.toList := fun t =>
    t.text_eq ▸ not_mem_bar_bracketed t.plain_name fun _ => Transform.plain_data
  rw [hbars, hbars] at h
  obtain ⟨hp, hrest⟩ := bar_inj (hpreprocess _) (hpreprocess _) h
  obtain ⟨ht, hq⟩ := bar_inj (htransform _) (htransform _) hrest
  obtain ⟨p, t, q⟩ := c
  obtain ⟨p', t', q'⟩ := d
  cases Preprocess.text_injective hp
  cases Transform.text_injective ht
  cases Query.text_injective hq
  rfl

end Candidate
end Mosaic
