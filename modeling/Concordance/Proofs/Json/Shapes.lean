import Concordance.Json.Draft
import Concordance.Proofs.Json.Scanning
import Concordance.Proofs.Text.Utf8

namespace Concordance

namespace Json

mutual

/-- The shape of the text of a value. A double that is not finite is written as null. -/
def shape : Json → Draft
  | .null => .null
  | .bool b => .bool b
  | .int n => .number (.ofInt n)
  | .double x => (Numeral.read? (jsonDouble x)).elim .null .number
  | .str s => .str (some s)
  | .arr items => .arr (shapes items)
  | .obj members => .obj (memberShapes members)

def shapes : List Json → List Draft
  | [] => []
  | item :: rest => shape item :: shapes rest

def memberShapes : List (String × Json) → List (Option String × Draft)
  | [] => []
  | (name, value) :: rest => (some name, shape value) :: memberShapes rest

end

theorem shapes_eq_map (items : List Json) : shapes items = items.map shape := by
  induction items with
  | nil => rfl
  | cons item rest ih => simp [shapes, ih]

theorem memberShapes_eq_map (members : List (String × Json)) :
    memberShapes members = members.map fun m => (some m.1, m.2.shape) := by
  induction members with
  | nil => rfl
  | cons member rest ih => simp [memberShapes, ih]

/-- Tokens that the reader takes for a value of this shape, wherever a value may stand. -/
def Builds (ts : List Token) (d : Draft) : Prop :=
  ∀ frames expect, expect = .value ∨ expect = .item →
    ts.foldlM Reader.step ⟨frames, expect⟩ = some (Reader.place frames d)

def BuildsMember (ts : List Token) (m : Option String × Draft) : Prop :=
  ∀ frames members name expect, expect = .name ∨ expect = .anotherName →
    ts.foldlM Reader.step ⟨.obj members name :: frames, expect⟩ =
      some ⟨.obj (m :: members) none :: frames, .more⟩

theorem Builds.single {t : Token} {d : Draft}
    (h : ∀ frames, Reader.open frames t = some (Reader.place frames d)) : Builds [t] d := by
  rintro frames expect (rfl | rfl)
  · simpa [Reader.step] using h frames
  · have hc : t ≠ .closeArray := by
      rintro rfl
      exact absurd (h []) (by simp [Reader.open])
    have hs : Reader.step ⟨frames, .item⟩ t = Reader.open frames t := by
      cases t <;> first | rfl | exact absurd rfl hc
    simpa [hs] using h frames

theorem Builds.intercalate {tss : List (List Token)} {ds : List Draft}
    (h : List.Forall₂ Builds tss ds) (hn : tss ≠ []) (frames : List Frame) (items : List Draft)
    {expect : Expect} (he : expect = .value ∨ expect = .item) :
    ([.comma].intercalate tss).foldlM Reader.step ⟨.arr items :: frames, expect⟩ =
      some ⟨.arr (ds.reverse ++ items) :: frames, .more⟩ := by
  induction h generalizing items expect with
  | nil => exact absurd rfl hn
  | @cons ts d tss ds hv hr ih =>
    cases hr with
    | nil =>
      have hp : Reader.place (.arr items :: frames) d = ⟨.arr (d :: items) :: frames, .more⟩ := rfl
      simpa [hp] using hv (.arr items :: frames) expect he
    | @cons us d' tss ds hd hr =>
      have hc : Reader.step (Reader.place (.arr items :: frames) d) .comma =
          some ⟨.arr (d :: items) :: frames, .value⟩ := rfl
      rw [List.intercalate_cons_cons, List.append_assoc, List.foldlM_append,
        hv (.arr items :: frames) expect he]
      simpa [hc] using ih (by simp) (d :: items) (.inl rfl)

theorem BuildsMember.intercalate {tss : List (List Token)} {ms : List (Option String × Draft)}
    (h : List.Forall₂ BuildsMember tss ms) (hn : tss ≠ []) (frames : List Frame)
    (members : List (Option String × Draft)) (name : Option String)
    {expect : Expect} (he : expect = .name ∨ expect = .anotherName) :
    ([.comma].intercalate tss).foldlM Reader.step ⟨.obj members name :: frames, expect⟩ =
      some ⟨.obj (ms.reverse ++ members) none :: frames, .more⟩ := by
  induction h generalizing members name expect with
  | nil => exact absurd rfl hn
  | @cons ts m tss ms hv hr ih =>
    cases hr with
    | nil => simpa using hv frames members name expect he
    | @cons us m' tss ms hd hr =>
      have hc : Reader.step ⟨.obj (m :: members) none :: frames, .more⟩ .comma =
          some ⟨.obj (m :: members) none :: frames, .anotherName⟩ := rfl
      rw [List.intercalate_cons_cons, List.append_assoc, List.foldlM_append,
        hv frames members name expect he]
      simpa [hc] using ih (by simp) (m :: members) none (.inr rfl)

theorem Builds.arr {tss : List (List Token)} {ds : List Draft} (h : List.Forall₂ Builds tss ds) :
    Builds (.openArray :: [.comma].intercalate tss ++ [.closeArray]) (.arr ds) := by
  intro frames expect he
  have ho : Reader.step ⟨frames, expect⟩ .openArray = some ⟨.arr [] :: frames, .item⟩ := by
    rcases he with rfl | rfl <;> rfl
  rw [List.cons_append, List.foldlM_cons, ho]
  cases tss with
  | nil =>
    cases h
    rfl
  | cons ts tss =>
    have hi := Builds.intercalate h (by simp) frames [] (.inr rfl)
    rw [List.append_nil] at hi
    simp [hi, Reader.step, Reader.close]

theorem BuildsMember.obj {tss : List (List Token)} {ms : List (Option String × Draft)}
    (h : List.Forall₂ BuildsMember tss ms) :
    Builds (.openObject :: [.comma].intercalate tss ++ [.closeObject]) (.obj ms) := by
  intro frames expect he
  have ho : Reader.step ⟨frames, expect⟩ .openObject = some ⟨.obj [] none :: frames, .name⟩ := by
    rcases he with rfl | rfl <;> rfl
  rw [List.cons_append, List.foldlM_cons, ho]
  cases tss with
  | nil =>
    cases h
    rfl
  | cons ts tss =>
    have hi := BuildsMember.intercalate h (by simp) frames [] none (.inl rfl)
    rw [List.append_nil] at hi
    simp [hi, Reader.step, Reader.close]

theorem BuildsMember.of_value {ts : List Token} {d : Draft} (h : Builds ts d) (name : String) :
    BuildsMember (.str (some name) :: .colon :: ts) (some name, d) := by
  intro frames members waiting expect he
  have hn : Reader.step ⟨.obj members waiting :: frames, expect⟩ (.str (some name)) =
      some ⟨.obj members waiting :: frames, .colon (some name)⟩ := by
    rcases he with rfl | rfl <;> rfl
  have hc : Reader.step ⟨.obj members waiting :: frames, .colon (some name)⟩ .colon =
      some ⟨.obj members (some name) :: frames, .value⟩ := rfl
  have hp : Reader.place (.obj members (some name) :: frames) d =
      ⟨.obj ((some name, d) :: members) none :: frames, .more⟩ := rfl
  have hv := h (.obj members (some name) :: frames) .value (.inl rfl)
  simpa [hn, hc, hp] using hv

mutual

/-- The tokens of a value are read as its shape. -/
theorem builds_tokens : ∀ j : Json, Builds j.tokens j.shape
  | .null => .single fun _ => rfl
  | .bool _ => .single fun _ => rfl
  | .int _ => .single fun _ => rfl
  | .double x => by
    unfold tokens doubleToken shape
    cases Numeral.read? (jsonDouble x) with
    | none => exact .single fun _ => rfl
    | some n => exact .single fun _ => rfl
  | .str _ => .single fun _ => rfl
  | .arr items => Builds.arr (builds_itemTokens items)
  | .obj members => BuildsMember.obj (builds_memberTokens members)

theorem builds_itemTokens : ∀ items : List Json,
    List.Forall₂ Builds (itemTokens items) (shapes items)
  | [] => .nil
  | item :: rest => .cons (builds_tokens item) (builds_itemTokens rest)

theorem builds_memberTokens : ∀ members : List (String × Json),
    List.Forall₂ BuildsMember (memberTokens members) (memberShapes members)
  | [] => .nil
  | (name, value) :: rest => .cons (.of_value (builds_tokens value) name) (builds_memberTokens rest)

end

theorem ofText?_compact (j : Json) : Draft.ofText? j.compact = some j.shape := by
  have hb := builds_tokens j [] .value (.inl rfl)
  rw [Draft.ofText?, Draft.read?, tokens?_compact, Option.bind_some, hb]
  rfl

theorem ofBytes?_encodeText_compact (j : Json) :
    Draft.ofBytes? (encodeText j.compact) = some j.shape := by
  rw [Draft.ofBytes?, spell_encodeText]
  exact ofText?_compact j

end Json

end Concordance
