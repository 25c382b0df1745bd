import Mosaic.Proofs.Tokens

/-!
# Texts that spell a value

A text spells a value if it is the value's JSON with blanks between the parts, wherever JSON allows them
(`Json.Spells`). Both texts that are written of a value spell it, and every text that spells a value is scanned as the
value, up to its end (`Json.ofText_of_spells`). The scan's fuel is spent on brackets and separators, of which
there are no more than characters (`Json.Scans`).
-/

namespace Mosaic
namespace Json

variable {c : Char} {cs ds rest ws : List Char} {fuel : Nat}

/-! ### Texts of values -/

mutual

/-- What a scan makes of a text of the value. -/
def scan : Json → Scan
  | null => .null
  | bool b => .bool b
  | int i => .int i
  | str s => .str s
  | arr items => .arr (scanItems items)
  | obj members => .obj (scanMembers members)

def scanItems : List Json → List Scan
  | [] => []
  | item :: rest => item.scan :: scanItems rest

def scanMembers : List (String × Json) → List (Option String × Scan)
  | [] => []
  | (key, value) :: rest => (some key, value.scan) :: scanMembers rest

end

def Blank (ws : List Char) : Prop := ∀ c ∈ ws, Scan.isBlank c = true

mutual

/-- The text writes the value, with blanks between its parts as it likes. -/
inductive Spells : Json → List Char → Prop
  | null : Spells null ['n', 'u', 'l', 'l']
  | yes : Spells (bool true) ['t', 'r', 'u', 'e']
  | no : Spells (bool false) ['f', 'a', 'l', 's', 'e']
  | int (i : Int) : Spells (int i) (digits i)
  | str (s : String) : Spells (str s) (quoted s)
  | noItems {ws : List Char} : Blank ws → Spells (arr []) ('[' :: ws ++ [']'])
  | arr {ws cs : List Char} {items : List Json} :
    Blank ws → SpellsItems items cs → Spells (arr items) ('[' :: ws ++ cs)
  | noMembers {ws : List Char} : Blank ws → Spells (obj []) ('{' :: ws ++ ['}'])
  | obj {ws cs : List Char} {members : List (String × Json)} :
    Blank ws → SpellsMembers members cs → Spells (obj members) ('{' :: ws ++ cs)

/-- Elements, at least one, and the closing bracket. -/
inductive SpellsItems : List Json → List Char → Prop
  | last {item : Json} {cs ws : List Char} : Spells item cs → Blank ws → SpellsItems [item] (cs ++ ws ++ [']'])
  | more {item : Json} {items : List Json} {cs ws ws' ds : List Char} :
    Spells item cs → Blank ws → Blank ws' → SpellsItems items ds →
      SpellsItems (item :: items) (cs ++ ws ++ ',' :: ws' ++ ds)

/-- Members, at least one, and the closing brace. -/
inductive SpellsMembers : List (String × Json) → List Char → Prop
  | last {key : String} {value : Json} {ws₁ ws₂ cs ws₃ : List Char} :
    Blank ws₁ → Blank ws₂ → Spells value cs → Blank ws₃ →
      SpellsMembers [(key, value)] (quoted key ++ ws₁ ++ ':' :: ws₂ ++ cs ++ ws₃ ++ ['}'])
  | more {key : String} {value : Json} {members : List (String × Json)} {ws₁ ws₂ cs ws₃ ws₄ ds : List Char} :
    Blank ws₁ → Blank ws₂ → Spells value cs → Blank ws₃ → Blank ws₄ → SpellsMembers members ds →
      SpellsMembers ((key, value) :: members)
        (quoted key ++ ws₁ ++ ':' :: ws₂ ++ cs ++ ws₃ ++ ',' :: ws₄ ++ ds)

end

/-! ### Scanning them -/

theorem skipBlanks_append (h : Blank ws) : Scan.skipBlanks (ws ++ cs) = Scan.skipBlanks cs :=
  List.dropWhile_append_of_pos h

theorem skipBlanks_cons (h : Scan.isBlank c = false) : Scan.skipBlanks (c :: cs) = c :: cs :=
  List.dropWhile_cons_of_neg (by simp [h])

theorem skipBlanks_eq (h : Blank ws) (hc : Scan.isBlank c = false) :
    Scan.skipBlanks (ws ++ c :: cs) = c :: cs := by
  rw [skipBlanks_append h, skipBlanks_cons hc]

theorem scanValue_append (h : Blank ws) : Scan.scanValue fuel (ws ++ cs) = Scan.scanValue fuel cs := by
  cases fuel with
  | zero => rfl
  | succ fuel => rw [Scan.scanValue, Scan.scanValue, skipBlanks_append h]

theorem scanMembers_append (h : Blank ws) :
    Scan.scanMembers fuel (ws ++ cs) = Scan.scanMembers fuel cs := by
  cases fuel with
  | zero => rfl
  | succ fuel => rw [Scan.scanMembers, Scan.scanMembers, skipBlanks_append h]

theorem scanItems_append (h : Blank ws) :
    Scan.scanItems fuel (ws ++ cs) = Scan.scanItems fuel cs := by
  cases fuel with
  | zero => rfl
  | succ fuel => rw [Scan.scanItems, Scan.scanItems, scanValue_append h]

theorem ne_of_isDigit {d : Char} (hc : c.isDigit = true) (hd : d.isDigit = false) : c ≠ d := by
  rintro rfl
  rw [hc] at hd
  cases hd

/-- A number begins with a digit or a sign. -/
theorem exists_digits_eq (i : Int) : ∃ c ds, digits i = c :: ds ∧ (c = '-' ∨ c.isDigit = true) := by
  unfold digits
  split
  · exact ⟨_, _, rfl, .inl rfl⟩
  · obtain ⟨c, ds, hdigits, hc⟩ := exists_toDigits_eq i.natAbs
    exact ⟨c, ds, hdigits, .inr hc⟩

theorem isBlank_eq_false (h : c = '-' ∨ c.isDigit = true) : Scan.isBlank c = false := by
  rcases h with rfl | h
  · decide
  · have hne : ∀ d : Char, d.isDigit = false → c ≠ d := fun d => ne_of_isDigit h
    simp [Scan.isBlank, hne]

/-- The text of a value begins with none of the marks that stand between values. -/
theorem Spells.head {j : Json} (h : Spells j cs) : ∃ c ds, cs = c :: ds ∧ Scan.isBlank c = false ∧ c ≠ ']' := by
  cases h with
  | null | yes | no | str | noItems | arr | noMembers | obj => exact ⟨_, _, rfl, by decide, by decide⟩
  | int i =>
    obtain ⟨c, ds, hdigits, hc⟩ := exists_digits_eq i
    refine ⟨c, ds, hdigits, isBlank_eq_false hc, ?_⟩
    rcases hc with rfl | hc
    · decide
    · exact ne_of_isDigit hc (by decide)

theorem scanValue_digits (i : Int) (h : Stops rest) :
    Scan.scanValue (fuel + 1) (digits i ++ rest) = (.int i, some rest) := by
  have hnumber := scanNumber_digits i h
  obtain ⟨c, ds, hdigits, hc⟩ := exists_digits_eq i
  rw [hdigits, List.cons_append] at hnumber ⊢
  have hne : ∀ d : Char, d ≠ '-' → d.isDigit = false → c ≠ d := by
    rintro d hminus hd rfl
    rcases hc with rfl | hc
    · exact hminus rfl
    · exact ne_of_isDigit hc hd rfl
  rw [Scan.scanValue, skipBlanks_cons (isBlank_eq_false hc)]
  split <;> rename_i heq
  case h_7 => rw [hnumber]; rfl
  all_goals exact absurd (List.cons.inj heq).1 (hne _ (by decide) (by decide))

theorem stops_nil : Stops [] := fun c h => by cases h

/-- A blank or a mark ends a number. -/
theorem stops_append (rest : List Char) (h : Blank ws) (hc : c = ',' ∨ c = ']' ∨ c = '}') :
    Stops (ws ++ c :: rest) := by
  intro d hd
  cases ws with
  | nil =>
    cases hd
    rcases hc with rfl | rfl | rfl <;> decide
  | cons b ws =>
    cases hd
    have hb : Scan.isBlank d = true := h d (List.mem_cons_self ..)
    simp only [Scan.isBlank, Bool.or_eq_true, decide_eq_true_eq] at hb
    rcases hb with ((rfl | rfl) | rfl) | rfl <;> decide

theorem SpellsItems.head {items : List Json} (h : SpellsItems items cs) :
    ∃ c ds, cs = c :: ds ∧ Scan.isBlank c = false ∧ c ≠ ']' := by
  cases h with
  | last hitem _ | more hitem _ _ _ =>
    obtain ⟨c, ds, rfl, hblank, hc⟩ := hitem.head
    exact ⟨c, _, rfl, hblank, hc⟩

theorem SpellsMembers.head {members : List (String × Json)} (h : SpellsMembers members cs) :
    ∃ ds, cs = '"' :: ds := by
  cases h with
  | last | more => exact ⟨_, rfl⟩

/-- So much fuel is enough for the texts that are no longer. -/
structure Scans (fuel : Nat) : Prop where
  value : ∀ {j : Json} {cs : List Char} (rest : List Char), Spells j cs → cs.length ≤ fuel → Stops rest →
    Scan.scanValue fuel (cs ++ rest) = (j.scan, some rest)
  items : ∀ {items : List Json} {cs : List Char} (rest : List Char), SpellsItems items cs →
    cs.length ≤ fuel → Scan.scanItems fuel (cs ++ rest) = (scanItems items, some rest)
  members : ∀ {members : List (String × Json)} {cs : List Char} (rest : List Char),
    SpellsMembers members cs → cs.length ≤ fuel →
      Scan.scanMembers fuel (cs ++ rest) = (scanMembers members, some rest)

theorem scanValue_quote : Scan.scanValue (fuel + 1) ('"' :: cs) =
    .ofOption ((Scan.scanString cs).map fun (s, rest) => (Scan.ofString? s, rest)) := rfl

theorem scanValue_bracket : Scan.scanValue (fuel + 1) ('[' :: cs) =
    match Scan.skipBlanks cs with
    | ']' :: rest => (.arr [], some rest)
    | rest => (.arr (Scan.scanItems fuel rest).1, (Scan.scanItems fuel rest).2) := rfl

theorem scanValue_brace : Scan.scanValue (fuel + 1) ('{' :: cs) =
    match Scan.skipBlanks cs with
    | '}' :: rest => (.obj [], some rest)
    | rest => (.obj (Scan.scanMembers fuel rest).1, (Scan.scanMembers fuel rest).2) := rfl

theorem Scans.succ_value (hscans : Scans fuel) {j : Json} (rest : List Char) (h : Spells j cs)
    (hfuel : cs.length ≤ fuel + 1) (hrest : Stops rest) :
    Scan.scanValue (fuel + 1) (cs ++ rest) = (j.scan, some rest) := by
  cases h with
  | null | yes | no => rfl
  | int i => exact scanValue_digits i hrest
  | str s =>
    have hs : quoted s ++ rest = '"' :: (s.toList.flatMap escape ++ '"' :: rest) := by
      simp [quoted]
    rw [hs, scanValue_quote, scanString_quoted]
    rfl
  | @noItems ws hws =>
    have hcs : '[' :: ws ++ [']'] ++ rest = '[' :: (ws ++ ']' :: rest) := by simp
    rw [hcs, scanValue_bracket, skipBlanks_eq hws (by decide)]
    rfl
  | @arr ws ds items hws hitems =>
    have hcs : '[' :: ws ++ ds ++ rest = '[' :: (ws ++ (ds ++ rest)) := by simp
    have hlength : ds.length ≤ fuel := by simp at hfuel; omega
    have hrec := hscans.items rest hitems hlength
    obtain ⟨c, tail, rfl, hblank, hc⟩ := hitems.head
    rw [hcs, scanValue_bracket, List.cons_append, skipBlanks_eq hws hblank]
    rw [List.cons_append] at hrec
    split
    · rename_i heq
      exact absurd (List.cons.inj heq).1 hc
    · rw [hrec]; rfl
  | @noMembers ws hws =>
    have hcs : '{' :: ws ++ ['}'] ++ rest = '{' :: (ws ++ '}' :: rest) := by simp
    rw [hcs, scanValue_brace, skipBlanks_eq hws (by decide)]
    rfl
  | @obj ws ds members hws hmembers =>
    have hcs : '{' :: ws ++ ds ++ rest = '{' :: (ws ++ (ds ++ rest)) := by simp
    have hlength : ds.length ≤ fuel := by simp at hfuel; omega
    have hrec := hscans.members rest hmembers hlength
    obtain ⟨tail, rfl⟩ := hmembers.head
    rw [hcs, scanValue_brace, List.cons_append, skipBlanks_eq hws (by decide)]
    rw [List.cons_append] at hrec
    show (Scan.obj (Scan.scanMembers fuel _).1, _) = _
    rw [hrec]
    rfl

theorem scanItems_last {item : Scan} (hvalue : Scan.scanValue fuel cs = (item, some ds))
    (hclose : Scan.skipBlanks ds = ']' :: rest) : Scan.scanItems (fuel + 1) cs = ([item], some rest) := by
  simp [Scan.scanItems, hvalue, hclose]

theorem scanItems_more {item : Scan} {items : List Scan} {es : List Char}
    (hvalue : Scan.scanValue fuel cs = (item, some ds)) (hcomma : Scan.skipBlanks ds = ',' :: es)
    (hitems : Scan.scanItems fuel es = (items, some rest)) :
    Scan.scanItems (fuel + 1) cs = (item :: items, some rest) := by
  simp [Scan.scanItems, hvalue, hcomma, hitems]

section

variable {key : Option String} {value : Scan} {es fs : List Char}

theorem scanMembers_last (hkey : Scan.scanString cs = some (key, ds)) (hcolon : Scan.skipBlanks ds = ':' :: es)
    (hvalue : Scan.scanValue fuel es = (value, some fs)) (hclose : Scan.skipBlanks fs = '}' :: rest) :
    Scan.scanMembers (fuel + 1) ('"' :: cs) = ([(key, value)], some rest) := by
  have hquote : Scan.skipBlanks ('"' :: cs) = '"' :: cs := skipBlanks_cons (by decide)
  simp [Scan.scanMembers, hquote, hkey, hcolon, hvalue, hclose]

theorem scanMembers_more {gs : List Char} {members : List (Option String × Scan)}
    (hkey : Scan.scanString cs = some (key, ds)) (hcolon : Scan.skipBlanks ds = ':' :: es)
    (hvalue : Scan.scanValue fuel es = (value, some fs)) (hcomma : Scan.skipBlanks fs = ',' :: gs)
    (hmembers : Scan.scanMembers fuel gs = (members, some rest)) :
    Scan.scanMembers (fuel + 1) ('"' :: cs) = ((key, value) :: members, some rest) := by
  have hquote : Scan.skipBlanks ('"' :: cs) = '"' :: cs := skipBlanks_cons (by decide)
  simp [Scan.scanMembers, hquote, hkey, hcolon, hvalue, hcomma, hmembers]

end

theorem Scans.succ_items (hscans : Scans fuel) {items : List Json} (rest : List Char) (h : SpellsItems items cs)
    (hfuel : cs.length ≤ fuel + 1) :
    Scan.scanItems (fuel + 1) (cs ++ rest) = (scanItems items, some rest) := by
  cases h with
  | @last item es ws hitem hws =>
    have hcs : es ++ ws ++ [']'] ++ rest = es ++ (ws ++ ']' :: rest) := by simp
    have hlength : es.length ≤ fuel := by simp at hfuel; omega
    have hvalue := hscans.value _ hitem hlength (stops_append rest hws (.inr (.inl rfl)))
    rw [hcs, scanItems_last hvalue (skipBlanks_eq hws (by decide))]
    rfl
  | @more item items es ws ws' ds hitem hws hws' hitems =>
    have hcs : es ++ ws ++ ',' :: ws' ++ ds ++ rest = es ++ (ws ++ ',' :: (ws' ++ (ds ++ rest))) := by simp
    have hlength : es.length ≤ fuel ∧ ds.length ≤ fuel := by simp at hfuel; omega
    have hvalue := hscans.value _ hitem hlength.1 (stops_append (ws' ++ (ds ++ rest)) hws (.inl rfl))
    have hlater := hscans.items rest hitems hlength.2
    rw [← scanItems_append hws'] at hlater
    rw [hcs, scanItems_more hvalue (skipBlanks_eq hws (by decide)) hlater]
    rfl

theorem Scans.succ_members (hscans : Scans fuel) {members : List (String × Json)} (rest : List Char)
    (h : SpellsMembers members cs) (hfuel : cs.length ≤ fuel + 1) :
    Scan.scanMembers (fuel + 1) (cs ++ rest) = (scanMembers members, some rest) := by
  cases h with
  | @last key value ws₁ ws₂ es ws₃ hws₁ hws₂ hes hws₃ =>
    have hcs : quoted key ++ ws₁ ++ ':' :: ws₂ ++ es ++ ws₃ ++ ['}'] ++ rest =
        '"' :: (key.toList.flatMap escape ++ '"' :: (ws₁ ++ ':' :: (ws₂ ++ (es ++ (ws₃ ++ '}' :: rest))))) := by
      simp [quoted]
    have hlength : es.length ≤ fuel := by simp at hfuel; omega
    have hvalue := hscans.value _ hes hlength (stops_append rest hws₃ (.inr (.inr rfl)))
    rw [← scanValue_append hws₂] at hvalue
    rw [hcs, scanMembers_last (scanString_quoted ..) (skipBlanks_eq hws₁ (by decide)) hvalue
      (skipBlanks_eq hws₃ (by decide))]
    rfl
  | @more key value members ws₁ ws₂ es ws₃ ws₄ ds hws₁ hws₂ hes hws₃ hws₄ hmembers =>
    have hcs : quoted key ++ ws₁ ++ ':' :: ws₂ ++ es ++ ws₃ ++ ',' :: ws₄ ++ ds ++ rest =
        '"' :: (key.toList.flatMap escape ++ '"' ::
          (ws₁ ++ ':' :: (ws₂ ++ (es ++ (ws₃ ++ ',' :: (ws₄ ++ (ds ++ rest))))))) := by
      simp [quoted]
    have hlength : es.length ≤ fuel ∧ ds.length ≤ fuel := by simp at hfuel; omega
    have hvalue := hscans.value _ hes hlength.1 (stops_append (ws₄ ++ (ds ++ rest)) hws₃ (.inl rfl))
    have hlater := hscans.members rest hmembers hlength.2
    rw [← scanValue_append hws₂] at hvalue
    rw [← scanMembers_append hws₄] at hlater
    rw [hcs, scanMembers_more (scanString_quoted ..) (skipBlanks_eq hws₁ (by decide)) hvalue
      (skipBlanks_eq hws₃ (by decide)) hlater]
    rfl

theorem scans (fuel : Nat) : Scans fuel := by
  induction fuel with
  | zero =>
    refine ⟨fun rest h hlength => ?_, fun rest h hlength => ?_, fun rest h hlength => ?_⟩
    · obtain ⟨c, ds, rfl, -⟩ := h.head
      cases hlength
    · obtain ⟨c, ds, rfl, -⟩ := h.head
      cases hlength
    · obtain ⟨ds, rfl⟩ := h.head
      cases hlength
  | succ fuel ih => exact ⟨ih.succ_value, ih.succ_items, ih.succ_members⟩

/-- A text that spells a value, whatever blanks it has, is scanned as that value up to its end. -/
theorem ofText_of_spells {j : Json} (h : Spells j cs) : Scan.ofText (String.ofList cs) = (j.scan, some []) := by
  have hlength : cs.length ≤ 2 * cs.length + 1 := by omega
  have hscan := (scans (2 * cs.length + 1)).value [] h hlength stops_nil
  rw [List.append_nil] at hscan
  rw [Scan.ofText, String.toList_ofList]
  exact hscan

/-! ### The two texts -/

theorem blank_nil : Blank [] := fun _ h => absurd h List.not_mem_nil

theorem blank_space : Blank [' '] := List.forall_mem_singleton.mpr rfl

theorem blank_newLine (level : Nat) : Blank (newLine level) := by
  intro c hc
  rcases List.mem_cons.mp hc with rfl | hc
  · decide
  · rw [List.eq_of_mem_replicate hc]
    decide

mutual

theorem spells_compact : (j : Json) → Spells j j.compact
  | .null => .null
  | .bool true => .yes
  | .bool false => .no
  | .int i => .int i
  | .str s => .str s
  | .arr [] => .noItems blank_nil
  | .arr (item :: rest) => .arr blank_nil (spells_compactItems (item :: rest) (List.cons_ne_nil _ _))
  | .obj [] => .noMembers blank_nil
  | .obj (member :: rest) => .obj blank_nil (spells_compactMembers (member :: rest) (List.cons_ne_nil _ _))

theorem spells_compactItems : (l : List Json) → l ≠ [] → SpellsItems l (compactItems l)
  | [], h => absurd rfl h
  | [item], _ => by
    have h := SpellsItems.last (spells_compact item) blank_nil
    simpa [compactItems] using h
  | item :: next :: rest, _ => by
    have h := SpellsItems.more (spells_compact item) blank_nil blank_nil
      (spells_compactItems (next :: rest) (List.cons_ne_nil _ _))
    simpa [compactItems] using h

theorem spells_compactMembers : (l : List (String × Json)) → l ≠ [] → SpellsMembers l (compactMembers l)
  | [], h => absurd rfl h
  | [(key, value)], _ => by
    have h : SpellsMembers [(key, value)] _ := .last blank_nil blank_nil (spells_compact value) blank_nil
    simpa [compactMembers] using h
  | (key, value) :: next :: rest, _ => by
    have h : SpellsMembers ((key, value) :: next :: rest) _ := .more blank_nil blank_nil (spells_compact value)
      blank_nil blank_nil (spells_compactMembers (next :: rest) (List.cons_ne_nil _ _))
    simpa [compactMembers] using h

end

mutual

theorem spells_indented (level : Nat) : (j : Json) → Spells j (j.indented level)
  | .null => .null
  | .bool true => .yes
  | .bool false => .no
  | .int i => .int i
  | .str s => .str s
  | .arr [] => .noItems blank_nil
  | .arr (item :: rest) => .arr (blank_newLine _) (spells_indentedItems level (item :: rest) (List.cons_ne_nil _ _))
  | .obj [] => .noMembers blank_nil
  | .obj (member :: rest) =>
    .obj (blank_newLine _) (spells_indentedMembers level (member :: rest) (List.cons_ne_nil _ _))

theorem spells_indentedItems (level : Nat) : (l : List Json) → l ≠ [] → SpellsItems l (indentedItems level l)
  | [], h => absurd rfl h
  | [item], _ => by
    have h := SpellsItems.last (spells_indented (level + 1) item) (blank_newLine level)
    simpa [indentedItems] using h
  | item :: next :: rest, _ => by
    have h := SpellsItems.more (spells_indented (level + 1) item) blank_nil (blank_newLine (level + 1))
      (spells_indentedItems level (next :: rest) (List.cons_ne_nil _ _))
    simpa [indentedItems] using h

theorem spells_indentedMembers (level : Nat) : (l : List (String × Json)) → l ≠ [] →
    SpellsMembers l (indentedMembers level l)
  | [], h => absurd rfl h
  | [(key, value)], _ => by
    have h : SpellsMembers [(key, value)] _ := .last blank_nil blank_space (spells_indented (level + 1) value)
      (blank_newLine level)
    simpa [indentedMembers] using h
  | (key, value) :: next :: rest, _ => by
    have h : SpellsMembers ((key, value) :: next :: rest) _ := .more blank_nil blank_space
      (spells_indented (level + 1) value) blank_nil (blank_newLine (level + 1))
      (spells_indentedMembers level (next :: rest) (List.cons_ne_nil _ _))
    simpa [indentedMembers] using h

end

theorem ofText_compactText (j : Json) : Scan.ofText j.compactText = (j.scan, some []) :=
  ofText_of_spells (spells_compact j)

theorem ofText_indentedText (j : Json) : Scan.ofText j.indentedText = (j.scan, some []) :=
  ofText_of_spells (spells_indented 0 j)

end Json
end Mosaic
