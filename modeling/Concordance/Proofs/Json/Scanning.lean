import Concordance.Json.Print
import Concordance.Json.Token
import Concordance.Proofs.Json.Literals
import Concordance.Text.Utf8

namespace Concordance.Json

def doubleToken (x : Float) : Token := (Numeral.read? (jsonDouble x)).elim .null .number

mutual

def tokens : Json → List Token
  | .null => [.null]
  | .bool b => [.bool b]
  | .int n => [.number (.ofInt n)]
  | .double x => [doubleToken x]
  | .str s => [.str (some s)]
  | .arr items => .openArray :: [.comma].intercalate (itemTokens items) ++ [.closeArray]
  | .obj members => .openObject :: [.comma].intercalate (memberTokens members) ++ [.closeObject]

def itemTokens : List Json → List (List Token)
  | [] => []
  | item :: rest => tokens item :: itemTokens rest

def memberTokens : List (String × Json) → List (List Token)
  | [] => []
  | (name, value) :: rest => (.str (some name) :: .colon :: tokens value) :: memberTokens rest

end

def Ends (c : Char) : Prop := c = ',' ∨ c = ']' ∨ c = '\x7d' ∨ c = ' '

/-- Characters that are scanned to tokens, with nothing left open. -/
def Scans (cs : List Char) (ts : List Token) : Prop :=
  ∀ before, cs.foldlM Scanner.step ⟨.between, before⟩ = some ⟨.between, ts.reverse ++ before⟩

/-- Characters that are scanned to tokens once a mark follows. -/
def ScansTo (cs : List Char) (ts : List Token) : Prop :=
  ∀ before c rest, Ends c → (cs ++ c :: rest).foldlM Scanner.step ⟨.between, before⟩ =
    (c :: rest).foldlM Scanner.step ⟨.between, ts.reverse ++ before⟩

section Compose

variable {cs ds : List Char} {ts us : List Token}

theorem Scans.scansTo (h : Scans cs ts) : ScansTo cs ts := by
  intro before c rest _
  rw [List.foldlM_append, h]
  rfl

theorem Scans.append (h : Scans cs ts) (h' : Scans ds us) : Scans (cs ++ ds) (ts ++ us) := by
  intro before
  rw [List.foldlM_append, h]
  simpa using h' (ts.reverse ++ before)

theorem Scans.append_to (h : Scans cs ts) (h' : ScansTo ds us) : ScansTo (cs ++ ds) (ts ++ us) := by
  intro before c rest he
  rw [List.append_assoc, List.foldlM_append, h]
  simpa using h' (ts.reverse ++ before) c rest he

theorem ScansTo.close (h : ScansTo cs ts) {c : Char} (he : Ends c) {t : Token}
    (hc : Scans [c] [t]) :
    Scans (cs ++ [c]) (ts ++ [t]) := by
  intro before
  rw [h before c [] he, hc]
  simp

theorem ScansTo.append (h : ScansTo cs ts) {c : Char} (he : Ends c) (h' : ScansTo (c :: ds) us) :
    ScansTo (cs ++ c :: ds) (ts ++ us) := by
  intro before d rest hd
  rw [List.append_assoc, List.cons_append, h before c _ he]
  simpa using h' (ts.reverse ++ before) d rest hd

theorem scans_nil : Scans [] [] := fun _ => rfl

theorem scans_marks : Scans ['['] [.openArray] ∧ Scans [']'] [.closeArray] ∧
    Scans ['\x7b'] [.openObject] ∧ Scans ['\x7d'] [.closeObject] ∧ Scans [','] [.comma] ∧
    Scans [':'] [.colon] :=
  ⟨fun _ => rfl, fun _ => rfl, fun _ => rfl, fun _ => rfl, fun _ => rfl, fun _ => rfl⟩

theorem scansTo_intercalate {css : List (List Char)} {tss : List (List Token)}
    (h : List.Forall₂ ScansTo css tss) :
    ScansTo ([','].intercalate css) ([.comma].intercalate tss) := by
  induction h with
  | nil => exact scans_nil.scansTo
  | @cons cs ts css tss hv hr ih =>
    cases hr with
    | nil => simpa using hv
    | @cons ds us css tss hd hr =>
      rw [List.intercalate_cons_cons, List.intercalate_cons_cons, List.append_assoc,
        List.append_assoc]
      exact hv.append (.inl rfl) (scans_marks.2.2.2.2.1.append_to ih)

end Compose

section Strings

def inside (chars : List Char) : Quoted := ⟨chars, true, none, .plain⟩

/-- The scanner undoes an escape. -/
theorem foldlM_escape (before : List Token) (chars : List Char) (c : Char) :
    (escape c).foldlM Scanner.step ⟨.quoted (inside chars), before⟩ =
      some ⟨.quoted (inside (c :: chars)), before⟩ := by
  unfold escape
  split
  case h_8 hq hb _ _ _ _ _ =>
    split
    next hc =>
      have hh : ∀ n < 0x20, hexValue? (hexDigit (n / 16)) = some (n / 16) ∧
          hexValue? (hexDigit n) = some (n % 16) := by decide
      obtain ⟨h1, h2⟩ := hh c.toNat hc
      have hz : hexValue? '0' = some 0 := rfl
      have hv : 16 * (c.toNat / 16) + c.toNat % 16 = c.toNat := by omega
      have hu : (⟨chars, true, none, .unit 3 (c.toNat / 16)⟩ : Quoted).pushUnit c.toNat =
          inside (c :: chars) := by
        have hf : ¬ 0xD800 ≤ c.toNat := by omega
        have hs : ¬ 0xDC00 ≤ c.toNat := by omega
        simp [Quoted.pushUnit, inside, hf, hs, Char.ofNat_toNat]
      simp [Scanner.step, Quoted.step, inside, h1, h2, hz, hv, hu]
    next hc =>
      have hq : c ≠ '"' := hq
      have hb : c ≠ '\\' := hb
      simp [Scanner.step, Quoted.step, inside, Quoted.push, hc, hq, hb]
  all_goals rfl

theorem scans_quote (s : String) : Scans (quote s).toList [.str (some s)] := by
  have hm : ∀ (cs chars : List Char) (before : List Token),
      (cs.flatMap escape).foldlM Scanner.step ⟨.quoted (inside chars), before⟩ =
        some ⟨.quoted (inside (cs.reverse ++ chars)), before⟩ := by
    intro cs
    induction cs with
    | nil => exact fun _ _ => rfl
    | cons c cs ih =>
      intro chars before
      rw [List.flatMap_cons, List.foldlM_append, foldlM_escape]
      simpa using ih (c :: chars) before
  intro before
  have hs : (quote s).toList = '"' :: (s.toList.flatMap escape ++ ['"']) := by
    simp [quote]
  have ho : Scanner.step ⟨.between, before⟩ '"' = some ⟨.quoted (inside []), before⟩ := rfl
  have hc : Scanner.step ⟨.quoted (inside s.toList.reverse), before⟩ '"' =
      some ⟨.between, .str (some s) :: before⟩ := by
    simp [Scanner.step, Quoted.step, Quoted.text, inside]
  have hm := hm s.toList [] before
  rw [List.append_nil] at hm
  simp [hs, ho, hm, hc]

end Strings

section Leaves

theorem Ends.stops {c : Char} (h : Ends c) : isNumeral c = false ∧ c.isAlpha = false := by
  rcases h with rfl | rfl | rfl | rfl <;> exact ⟨rfl, rfl⟩

theorem scansTo_word {w : List Char} {t : Token}
    (hw : ∀ before, w.foldlM Scanner.step ⟨.between, before⟩ = some ⟨.word w.reverse, before⟩)
    (ht : wordToken? w = some t) : ScansTo w [t] := by
  intro before c rest he
  rw [List.foldlM_append, hw]
  simp [Scanner.step, he.stops.2, ht]

theorem foldlM_numeral (before : List Token) {cs : List Char} (h : ∀ c ∈ cs, isNumeral c = true)
    (chars : List Char) : cs.foldlM Scanner.step ⟨.numeral chars, before⟩ =
      some ⟨.numeral (cs.reverse ++ chars), before⟩ := by
  induction cs generalizing chars with
  | nil => rfl
  | cons c cs ih =>
    have hc := h c (by simp)
    have ih := ih (fun d hd => h d (by simp [hd])) (c :: chars)
    simp [Scanner.step, hc, ih]

theorem start_numeral (before : List Token) {c : Char} (h : c = '-' ∨ c.isDigit = true) :
    Scanner.start before c = some ⟨.numeral [c], before⟩ := by
  rcases h with rfl | h
  · rfl
  · unfold Scanner.start
    split
    case h_8 =>
      have hb : (c == ' ' || c == '\t' || c == '\n' || c == '\r') = false := by
        rw [Bool.eq_false_iff]
        intro hb
        simp only [Bool.or_eq_true, beq_iff_eq] at hb
        rcases hb with ((rfl | rfl) | rfl) | rfl <;> exact absurd h (by decide)
      simp [hb, h]
    all_goals exact absurd h (by decide)

theorem isNumeral_spelling {n : Numeral} (h : n.Proper) : ∀ c ∈ n.spelling, isNumeral c = true := by
  have hd : ∀ cs, Digits cs → ∀ c ∈ cs, isNumeral c = true := by
    intro cs hcs c hc
    simp [isNumeral, hcs.2 c hc]
  have hw := hd _ h.whole
  have hf : ∀ c ∈ n.fraction.elim [] ('.' :: ·), isNumeral c = true := by
    cases hn : n.fraction with
    | none => simp
    | some f => exact List.forall_mem_cons.2 ⟨rfl, hd f (h.fraction f hn)⟩
  have hx : ∀ c ∈ Numeral.exponentChars n.exponent, isNumeral c = true := by
    cases hn : n.exponent with
    | none => simp [Numeral.exponentChars]
    | some e =>
      obtain ⟨down, power⟩ := e
      refine List.forall_mem_cons.2 ⟨rfl, List.forall_mem_cons.2 ⟨?_, ?_⟩⟩
      · cases down <;> rfl
      · exact hd power (h.exponent down power hn)
  have hb := List.forall_mem_append.2 ⟨List.forall_mem_append.2 ⟨hw, hf⟩, hx⟩
  unfold Numeral.spelling withSign
  split
  · exact List.forall_mem_cons.2 ⟨rfl, hb⟩
  · exact hb

theorem scansTo_spelling {n : Numeral} (h : n.Proper) : ScansTo n.spelling [.number n] := by
  have hn := isNumeral_spelling h
  have hr := Numeral.read?_spelling h
  obtain ⟨c, cs, hs, hc⟩ : ∃ c cs, n.spelling = c :: cs ∧ (c = '-' ∨ c.isDigit = true) := by
    obtain ⟨⟨hne, hw⟩, -, -, -⟩ := h
    obtain ⟨c, cs, he⟩ := List.exists_cons_of_ne_nil hne
    have hd := hw c (by simp [he])
    cases hneg : n.negative
    · exact ⟨c, _, by simp [Numeral.spelling, withSign, hneg, he]; rfl, .inr hd⟩
    · exact ⟨'-', _, by simp [Numeral.spelling, withSign, hneg]; rfl, .inl rfl⟩
  rw [hs] at hn hr ⊢
  intro before d rest he
  have hf := foldlM_numeral before (List.forall_mem_cons.1 hn).2 [c]
  have ho := start_numeral before hc
  simp [ho, hf, Scanner.step, he.stops.1, hr]

theorem scansTo_double (x : Float) : ScansTo (jsonDouble x) [doubleToken x] := by
  unfold doubleToken
  cases hx : Exact.ofFloat? x with
  | none =>
    have hj : jsonDouble x = ['n', 'u', 'l', 'l'] := by simp [jsonDouble, hx]
    have hr : Numeral.read? ['n', 'u', 'l', 'l'] = none := rfl
    rw [hj, hr]
    exact scansTo_word (fun _ => rfl) rfl
  | some e =>
    obtain ⟨n, hp, -, hs⟩ := jsonDouble_spelling hx
    have hr := Numeral.read?_spelling hp
    rw [← hs, hr]
    exact scansTo_spelling hp

end Leaves

section Values

mutual

theorem scansTo_compact : ∀ j : Json, ScansTo j.compact.toList j.tokens
  | .null => scansTo_word (fun _ => rfl) rfl
  | .bool true => scansTo_word (fun _ => rfl) rfl
  | .bool false => scansTo_word (fun _ => rfl) rfl
  | .int n => by
    have h := scansTo_spelling (Numeral.ofInt_proper n)
    rw [Numeral.ofInt_spelling] at h
    exact h
  | .double x => by
    have hl : (Json.double x).compact.toList = jsonDouble x := by simp [compact, leaf]
    rw [hl]
    exact scansTo_double x
  | .str s => (scans_quote s).scansTo
  | .arr items => by
    have hl : (Json.arr items).compact.toList =
        ['['] ++ ([','].intercalate ((compactItems items).map String.toList) ++ [']']) := by
      simp [compact]
    have hi := (scansTo_intercalate (scansTo_compactItems items)).close (.inr (.inl rfl))
      scans_marks.2.1
    rw [hl]
    exact (scans_marks.1.append hi).scansTo
  | .obj members => by
    have hl : (Json.obj members).compact.toList =
        ['\x7b'] ++
          ([','].intercalate ((compactMembers members).map String.toList) ++ ['\x7d']) := by
      simp [compact]
    have hm := (scansTo_intercalate (scansTo_compactMembers members)).close (.inr (.inr (.inl rfl)))
      scans_marks.2.2.2.1
    rw [hl]
    exact (scans_marks.2.2.1.append hm).scansTo

theorem scansTo_compactItems : ∀ items : List Json,
    List.Forall₂ ScansTo ((compactItems items).map String.toList) (itemTokens items)
  | [] => .nil
  | item :: rest => .cons (scansTo_compact item) (scansTo_compactItems rest)

theorem scansTo_compactMembers : ∀ members : List (String × Json),
    List.Forall₂ ScansTo ((compactMembers members).map String.toList) (memberTokens members)
  | [] => .nil
  | (name, value) :: rest => by
    have hl : (quote name ++ ":" ++ value.compact).toList =
        (quote name).toList ++ ([':'] ++ value.compact.toList) := by simp
    have hv := (scans_quote name).append_to
      (scans_marks.2.2.2.2.2.append_to (scansTo_compact value))
    rw [← hl] at hv
    exact .cons hv (scansTo_compactMembers rest)

end

theorem tokens?_compact (j : Json) : tokens? (spellText j.compact) = some j.tokens := by
  -- The blank that the scanner appends is the mark that ends the value.
  have hs := scansTo_compact j [] ' ' [] (.inr (.inr (.inr rfl)))
  have hf : ∀ cs : List Char, (cs.map some).foldlM Scanner.read ⟨.between, []⟩ =
      cs.foldlM Scanner.step ⟨.between, []⟩ := fun cs => List.foldlM_map ..
  have hm : spellText j.compact ++ [some ' '] = (j.compact.toList ++ [' ']).map some := by
    simp [spellText]
  rw [tokens?, hm, hf, hs]
  simp [Scanner.step, Scanner.start]

end Values

end Concordance.Json
