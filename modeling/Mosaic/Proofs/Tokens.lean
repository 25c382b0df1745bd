import Mosaic.Json.Basic
import Mosaic.Json.Scan

/-!
# Numbers and strings in a text

What is written for a number or a string is scanned as that number or string. A number is read as far as it
goes, so what follows it must not go on with it (`Json.Stops`). A string ends at its closing quotation mark, since
every quotation mark in it is escaped; each character has one way to be written (`Json.escape_cases`), and the piece
that is scanned for it stands for it (`Json.exists_piece`).
-/

namespace Mosaic
namespace Json

variable {c : Char} {cs rest : List Char} {n : Nat}

/-! ### Numbers -/

/-- No number goes on in the text. -/
def Stops (rest : List Char) : Prop :=
  ∀ c, rest.head? = some c → c.isDigit = false ∧ c ≠ '.' ∧ c ≠ 'e' ∧ c ≠ 'E'

theorem isDigit_of_mem_toDigits (h : c ∈ Nat.toDigits 10 n) : c.isDigit = true :=
  Nat.isDigit_of_mem_toDigits (by decide) (by decide) h

theorem exists_toDigits_eq (n : Nat) : ∃ c cs, Nat.toDigits 10 n = c :: cs ∧ c.isDigit = true := by
  cases hd : Nat.toDigits 10 n with
  | nil => exact absurd hd Nat.toDigits_ne_nil
  | cons c cs => exact ⟨c, cs, rfl, isDigit_of_mem_toDigits (hd ▸ List.mem_cons_self ..)⟩

theorem takeWhile_digits (h : Stops rest) :
    (Nat.toDigits 10 n ++ rest).takeWhile Char.isDigit = Nat.toDigits 10 n := by
  rw [List.takeWhile_append_of_pos fun c => isDigit_of_mem_toDigits]
  cases rest with
  | nil => rw [List.takeWhile_nil, List.append_nil]
  | cons c rest => rw [List.takeWhile_cons_of_neg (by simp [(h c rfl).1]), List.append_nil]

theorem dropWhile_digits (h : Stops rest) :
    (Nat.toDigits 10 n ++ rest).dropWhile Char.isDigit = rest := by
  rw [List.dropWhile_append_of_pos fun c => isDigit_of_mem_toDigits]
  cases rest with
  | nil => rfl
  | cons c rest => exact List.dropWhile_cons_of_neg (by simp [(h c rfl).1])

theorem scanDigits_digits (h : Stops rest) :
    Scan.scanDigits (Nat.toDigits 10 n ++ rest) = some (Nat.toDigits 10 n, rest) := by
  rw [Scan.scanDigits, takeWhile_digits h, dropWhile_digits h]
  obtain ⟨c, cs, hdigits, -⟩ := exists_toDigits_eq n
  rw [hdigits]

theorem scanFraction_of_stops (h : Stops rest) : Scan.scanFraction rest = some (false, rest) := by
  cases rest with
  | nil => rfl
  | cons c rest =>
    obtain ⟨-, hpoint, -⟩ := h c rfl
    unfold Scan.scanFraction
    split
    · rename_i heq
      exact absurd (List.cons.inj heq).1 hpoint
    · rfl

theorem scanExponent_of_stops (h : Stops rest) : Scan.scanExponent rest = some (false, rest) := by
  cases rest with
  | nil => rfl
  | cons c rest =>
    obtain ⟨-, -, he, hE⟩ := h c rfl
    simp [Scan.scanExponent, he, hE]

/-- Only zero is written with a zero in front. -/
theorem head?_toDigits (h : (Nat.toDigits 10 n).head? = some '0') : n = 0 := by
  induction n using Nat.strongRecOn with
  | ind n ih =>
    rw [Nat.toDigits_eq_if (by decide)] at h
    split at h
    · rename_i hlt
      have hdigit : ∀ d < 10, d.digitChar = '0' → d = 0 := by decide
      exact hdigit n hlt (Option.some.inj h)
    · -- the leading digit is that of the tenth, which is not zero
      obtain ⟨c, cs, hdigits, -⟩ := exists_toDigits_eq (n / 10)
      rw [hdigits, List.cons_append, List.head?_cons] at h
      have htenth : n / 10 = 0 := ih (n / 10) (by omega) (by rw [hdigits, List.head?_cons, h])
      omega

theorem scanUnsigned_digits (h : Stops rest) :
    Scan.scanUnsigned (Nat.toDigits 10 n ++ rest) = some (Nat.toDigits 10 n, false, rest) := by
  have hzero : ¬((Nat.toDigits 10 n).head? = some '0' ∧ 1 < (Nat.toDigits 10 n).length) := by
    rintro ⟨hhead, hlength⟩
    rw [head?_toDigits hhead] at hlength
    exact absurd hlength (by decide)
  simp only [Scan.scanUnsigned, scanDigits_digits h, Option.bind_eq_bind, Option.bind_some, if_neg hzero,
    scanFraction_of_stops h, scanExponent_of_stops h]
  rfl

theorem scanNumber_digits (i : Int) (h : Stops rest) :
    Scan.scanNumber (digits i ++ rest) = some (.int i, rest) := by
  unfold digits
  split
  · rename_i hneg
    have hne : i.natAbs ≠ 0 := by omega
    have hval : -(i.natAbs : Int) = i := by omega
    rw [List.cons_append, Scan.scanNumber, scanUnsigned_digits h]
    simp only [Option.bind_eq_bind, Option.bind_some, Nat.ofDigitChars_ten_toDigits, hval, hne]
    rfl
  · rename_i hneg
    have hval : (i.natAbs : Int) = i := by omega
    unfold Scan.scanNumber
    split
    · rename_i cs heq
      obtain ⟨c, tail, hdigits, hc⟩ := exists_toDigits_eq i.natAbs
      rw [hdigits] at heq
      rw [(List.cons.inj heq).1] at hc
      exact absurd hc (by decide)
    · rw [scanUnsigned_digits h]
      simp only [Option.bind_eq_bind, Option.bind_some, Nat.ofDigitChars_ten_toDigits, hval]
      rfl

/-! ### Strings -/

/-- How a character is written: by a letter, by its unit, or as it stands. -/
theorem escape_cases (c : Char) :
    (∃ e, e ≠ 'u' ∧ Scan.shortEscape? e = some c ∧ escape c = ['\\', e]) ∨
    (c.toNat < 32 ∧ escape c =
      ['\\', 'u', '0', '0', Nat.digitChar (c.toNat / 16), Nat.digitChar (c.toNat % 16)]) ∨
    (c ≠ '"' ∧ c ≠ '\\' ∧ ¬c.toNat < 32 ∧ escape c = [c]) := by
  by_cases hshort : c ∈ ['"', '\\', '\n', '\r', '\t', '\x08', '\x0c']
  · left
    simp only [List.mem_cons, List.not_mem_nil, or_false] at hshort
    rcases hshort with rfl | rfl | rfl | rfl | rfl | rfl | rfl <;> exact ⟨_, by decide, rfl, rfl⟩
  · right
    simp only [List.mem_cons, List.not_mem_nil, or_false, not_or] at hshort
    obtain ⟨hquote, hslash, hn, hr, ht, hb, hf⟩ := hshort
    rw [escape, if_neg hquote, if_neg hslash, if_neg hn, if_neg hr, if_neg ht, if_neg hb, if_neg hf]
    by_cases hcontrol : c.toNat < 32
    · exact .inl ⟨hcontrol, if_pos hcontrol⟩
    · exact .inr ⟨hquote, hslash, hcontrol, if_neg hcontrol⟩

theorem hexUnit?_digits : ∀ n < 32,
    Scan.hexUnit? '0' '0' (Nat.digitChar (n / 16)) (Nat.digitChar (n % 16)) = some n := by
  decide

theorem scanPieces_short {e : Char} (he : e ≠ 'u') (h : Scan.shortEscape? e = some c) :
    Scan.scanPieces ('\\' :: e :: cs) = (Scan.scanPieces cs).map (Prod.map (.char c :: ·) id) := by
  rw [Scan.scanPieces, h]
  · cases Scan.scanPieces cs <;> rfl
  · simp [he]

theorem scanPieces_unit {n : Nat} {d₁ d₂ d₃ d₄ : Char} (h : Scan.hexUnit? d₁ d₂ d₃ d₄ = some n) :
    Scan.scanPieces ('\\' :: 'u' :: d₁ :: d₂ :: d₃ :: d₄ :: cs) =
      (Scan.scanPieces cs).map (Prod.map (.unit n :: ·) id) := by
  rw [Scan.scanPieces, h]
  cases Scan.scanPieces cs <;> rfl

theorem scanPieces_plain (hquote : c ≠ '"') (hslash : c ≠ '\\') (hcontrol : ¬c.toNat < 32) :
    Scan.scanPieces (c :: cs) = (Scan.scanPieces cs).map (Prod.map (.char c :: ·) id) := by
  rw [Scan.scanPieces, if_neg hcontrol]
  · cases Scan.scanPieces cs <;> rfl
  · simp [hquote]
  · simp [hslash]
  · simp [hslash]

/-- In front of any pieces, the piece stands for the character. -/
def StandsFor (p : Scan.Piece) (c : Char) : Prop :=
  ∀ pieces, Scan.joinPieces (p :: pieces) = (Scan.joinPieces pieces).map (c :: ·)

theorem standsFor_char (c : Char) : StandsFor (.char c) c := fun _ => rfl

theorem standsFor_unit (h : c.toNat < 32) : StandsFor (.unit c.toNat) c := by
  have hhigh : Scan.isHigh c.toNat = false := by simp [Scan.isHigh]; omega
  have hlow : Scan.isLow c.toNat = false := by simp [Scan.isLow]; omega
  have hchar : Char.ofNat c.toNat = c := Char.ofNat_toNat c
  rintro (_ | ⟨_ | m, pieces⟩) <;> simp [Scan.joinPieces, hhigh, hlow, hchar]

theorem exists_piece (c : Char) : ∃ p, StandsFor p c ∧
    ∀ cs, Scan.scanPieces (escape c ++ cs) = (Scan.scanPieces cs).map (Prod.map (p :: ·) id) := by
  rcases escape_cases c with ⟨e, he, hshort, hescape⟩ | ⟨hcontrol, hescape⟩ | ⟨hquote, hslash, hcontrol, hescape⟩
  · exact ⟨_, standsFor_char c, fun cs => hescape ▸ scanPieces_short he hshort⟩
  · exact ⟨_, standsFor_unit hcontrol, fun cs => hescape ▸ scanPieces_unit (hexUnit?_digits _ hcontrol)⟩
  · exact ⟨_, standsFor_char c, fun cs => hescape ▸ scanPieces_plain hquote hslash hcontrol⟩

theorem exists_pieces (s rest : List Char) : ∃ pieces, Scan.joinPieces pieces = some s ∧
    Scan.scanPieces (s.flatMap escape ++ '"' :: rest) = some (pieces, rest) := by
  induction s with
  | nil => exact ⟨[], rfl, rfl⟩
  | cons c s ih =>
    obtain ⟨p, hp, hscan⟩ := exists_piece c
    obtain ⟨pieces, hjoin, hrest⟩ := ih
    refine ⟨p :: pieces, ?_, ?_⟩
    · rw [hp, hjoin]; rfl
    · rw [List.flatMap_cons, List.append_assoc, hscan, hrest]; rfl

/-- A string is read back from its text, whatever characters it has. -/
theorem scanString_quoted (s : String) (rest : List Char) :
    Scan.scanString (s.toList.flatMap escape ++ '"' :: rest) = some (some s, rest) := by
  obtain ⟨pieces, hjoin, hscan⟩ := exists_pieces s.toList rest
  rw [Scan.scanString, hscan, Option.map_some]
  dsimp only
  rw [hjoin, Option.map_some, String.ofList_toList]

end Json
end Mosaic
