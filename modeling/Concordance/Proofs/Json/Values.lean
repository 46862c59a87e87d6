import Concordance.Json.Fields
import Concordance.Proofs.Json.Shapes

namespace Concordance

/-- A double that is read back from its text as it is. -/
def ReadsBack (x : Float) : Prop := (Numeral.read? (jsonDouble x)).bind Numeral.double? = some x

theorem ofList_toList {β : Type} (m : Named β) : Std.ExtTreeMap.ofList m.toList compare = m := by
  refine Std.ExtTreeMap.ext_getElem? fun name => ?_
  cases hv : m[name]? with
  | none =>
    refine Std.ExtTreeMap.getElem?_ofList_of_contains_eq_false ?_
    rw [Std.ExtTreeMap.map_fst_toList_eq_keys, List.contains_eq_mem, decide_eq_false_iff_not,
      Std.ExtTreeMap.mem_keys, Std.ExtTreeMap.mem_iff_isSome_getElem?, hv]
    simp
  | some v =>
    exact Std.ExtTreeMap.getElem?_ofList_of_mem (by simp) Std.ExtTreeMap.distinct_keys_toList
      (Std.ExtTreeMap.mem_toList_iff_getElem?_eq_some.2 hv)

theorem mem_of_getElem?_ofList {β : Type} {l : List (String × β)} {name : String} {v : β}
    (h : (Std.ExtTreeMap.ofList l compare)[name]? = some v) : (name, v) ∈ l := by
  have hf : ∀ m : Named β, (l.foldl (fun m p => m.insert p.1 p.2) m)[name]? = some v →
      (name, v) ∈ l ∨ m[name]? = some v := by
    clear h
    induction l with
    | nil => exact fun m h => .inr h
    | cons p l ih =>
      intro m h
      rcases ih _ h with hl | hm
      · exact .inl (List.mem_cons_of_mem _ hl)
      · rw [Std.ExtTreeMap.getElem?_insert] at hm
        by_cases he : p.1 = name
        · left
          have hv : p.2 = v := by simpa [he] using hm
          simp [← he, ← hv]
        · right
          simpa [he] using hm
  rw [Std.ExtTreeMap.ofList_eq_foldl] at h
  rcases hf ∅ h with h | h
  · exact h
  · simp at h

theorem ofList_toList_words (s : WordSet) : Std.ExtTreeSet.ofList s.toList compare = s :=
  Std.ExtTreeSet.ext_mem fun word => by simp

section Lists

variable {α γ : Type} {f : α → Option γ} {g : α → γ} {l : List α}

theorem mapM_eq_some (h : ∀ a ∈ l, f a = some (g a)) : l.mapM f = some (l.map g) := by
  induction l with
  | nil => rfl
  | cons a l ih =>
    have ha := h a (by simp)
    have hl := ih fun b hb => h b (by simp [hb])
    simp [ha, hl]

theorem mapM_eq_none {a : α} (ha : a ∈ l) (h : f a = none) : l.mapM f = none := by
  induction l with
  | nil => cases ha
  | cons b l ih =>
    rcases List.mem_cons.1 ha with rfl | ha
    · simp [h]
    · have hl := ih ha
      cases hb : f b <;> simp [hb, hl]

end Lists

namespace Json

mutual

def height : Json → Nat
  | .arr items => itemsHeight items + 1
  | .obj members => membersHeight members + 1
  | _ => 0

def itemsHeight : List Json → Nat
  | [] => 0
  | item :: rest => max (height item) (itemsHeight rest)

def membersHeight : List (String × Json) → Nat
  | [] => 0
  | (_, value) :: rest => max (height value) (membersHeight rest)

end

mutual

def doubles : Json → List Float
  | .double x => [x]
  | .arr items => itemsDoubles items
  | .obj members => membersDoubles members
  | _ => []

def itemsDoubles : List Json → List Float
  | [] => []
  | item :: rest => doubles item ++ itemsDoubles rest

def membersDoubles : List (String × Json) → List Float
  | [] => []
  | (_, value) :: rest => doubles value ++ membersDoubles rest

end

theorem membersHeight_le {members : List (String × Json)} {depth : Nat}
    (h : ∀ member ∈ members, member.2.height ≤ depth) : membersHeight members ≤ depth := by
  induction members with
  | nil => exact Nat.zero_le depth
  | cons member rest ih =>
    obtain ⟨hm, hr⟩ := List.forall_mem_cons.1 h
    exact Nat.max_le.2 ⟨hm, ih hr⟩

theorem exists_of_mem_membersDoubles {members : List (String × Json)} {x : Float}
    (h : x ∈ membersDoubles members) : ∃ member ∈ members, x ∈ member.2.doubles := by
  induction members with
  | nil => cases h
  | cons member rest ih =>
    rcases List.mem_append.1 h with hm | hr
    · exact ⟨member, List.mem_cons_self, hm⟩
    · obtain ⟨other, ho, hx⟩ := ih hr
      exact ⟨other, List.mem_cons_of_mem _ ho, hx⟩

/-- A value as reading gives it: whole numbers fit 64 bits, with sign or without, and members stand
in the order of their names, each name once. -/
inductive Canonical : Json → Prop where
  | null : Canonical .null
  | bool (b : Bool) : Canonical (.bool b)
  | int {n : Int} : -2 ^ 63 ≤ n → n < 2 ^ 64 → Canonical (.int n)
  | double (x : Float) : Canonical (.double x)
  | str (s : String) : Canonical (.str s)
  | arr {items : List Json} : (∀ item ∈ items, Canonical item) → Canonical (.arr items)
  | obj {record : Record} : (∀ member ∈ record.toList, Canonical member.2) →
      Canonical (.obj record.toList)

theorem Numeral.canonical_of_json? {n : Numeral} {j : Json} (h : n.json? = some j) :
    j.Canonical := by
  unfold Numeral.json? at h
  split at h
  next i hi =>
    cases h
    unfold Numeral.int? Numeral.wordLimit at hi
    dsimp only at hi
    have hb : -2 ^ 63 ≤ i ∧ i < 2 ^ 64 := by
      split at hi
      · cases hi
      · split at hi
        · split at hi
          next hv =>
            cases hi
            simp at hv
            omega
          next => cases hi
        · split at hi
          next hv =>
            cases hi
            omega
          next => cases hi
    exact .int hb.1 hb.2
  next =>
    obtain ⟨x, -, rfl⟩ := Option.map_eq_some_iff.1 h
    exact .double x

mutual

theorem canonical_of_json? : ∀ (d : Draft) {depth : Nat} {j : Json}, d.json? depth = some j →
    j.Canonical
  | .null, _, j, h => by
    cases h
    exact .null
  | .bool b, _, j, h => by
    cases h
    exact .bool b
  | .number n, _, j, h => Numeral.canonical_of_json? h
  | .str text, _, j, h => by
    obtain ⟨s, -, rfl⟩ := Option.map_eq_some_iff.1 h
    exact .str s
  | .arr items, 0, j, h => by cases h
  | .arr items, depth + 1, j, h => by
    obtain ⟨values, hv, rfl⟩ := Option.map_eq_some_iff.1 h
    exact .arr (canonical_of_items? items hv)
  | .obj members, 0, j, h => by cases h
  | .obj members, depth + 1, j, h => by
    obtain ⟨values, hv, rfl⟩ := Option.map_eq_some_iff.1 h
    have hm := canonical_of_members? members hv
    exact .obj fun member hin => hm member
      (mem_of_getElem?_ofList (Std.ExtTreeMap.mem_toList_iff_getElem?_eq_some.1 hin))

theorem canonical_of_items? : ∀ (ds : List Draft) {depth : Nat} {items : List Json},
    Draft.items? depth ds = some items → ∀ item ∈ items, item.Canonical
  | [], _, items, h => by
    cases h
    simp
  | d :: ds, depth, items, h => by
    simp only [Draft.items?, Option.bind_eq_bind, Option.bind_eq_some_iff] at h
    obtain ⟨value, hv, rest, hr, he⟩ := h
    cases he
    exact List.forall_mem_cons.2 ⟨canonical_of_json? d hv, canonical_of_items? ds hr⟩

theorem canonical_of_members? : ∀ (ds : List (Option String × Draft)) {depth : Nat}
    {members : List (String × Json)}, Draft.members? depth ds = some members →
    ∀ member ∈ members, member.2.Canonical
  | [], _, members, h => by
    cases h
    simp
  | (name, d) :: ds, depth, members, h => by
    simp only [Draft.members?, Option.bind_eq_bind, Option.bind_eq_some_iff] at h
    obtain ⟨name, -, value, hv, rest, hr, he⟩ := h
    cases he
    exact List.forall_mem_cons.2 ⟨canonical_of_json? d hv, canonical_of_members? ds hr⟩

end

theorem json?_shape_double {x : Float} (h : ReadsBack x) (depth : Nat) :
    (Json.double x).shape.json? depth = some (.double x) := by
  unfold ReadsBack at h
  unfold shape
  cases hx : Exact.ofFloat? x with
  | none =>
    have hj : jsonDouble x = ['n', 'u', 'l', 'l'] := by simp [jsonDouble, hx]
    have hr : Numeral.read? ['n', 'u', 'l', 'l'] = none := rfl
    simp [hj, hr] at h
  | some e =>
    obtain ⟨n, hp, hm, hs⟩ := jsonDouble_spelling hx
    have hr := Numeral.read?_spelling hp
    rw [hs] at hr
    rw [hr, Option.bind_some] at h
    simp [hr, Draft.json?, Numeral.json?, hm.int?, h]

mutual

theorem json?_shape : ∀ {j : Json} (depth : Nat), j.Canonical → (∀ x ∈ j.doubles, ReadsBack x) →
    j.shape.json? depth = if j.height ≤ depth then some j else none
  | .null, _, _, _ => rfl
  | .bool _, _, _, _ => rfl
  | .int n, depth, hc, _ => by
    cases hc with
    | int hl hu => simp [shape, Draft.json?, Numeral.json?, Numeral.int?_ofInt hl hu, height]
  | .double x, depth, _, hd => by
    simp [json?_shape_double (hd x (by simp [doubles])), height]
  | .str _, _, _, _ => rfl
  | .arr items, 0, _, _ => by simp [shape, Draft.json?, height]
  | .arr items, depth + 1, hc, hd => by
    cases hc with
    | arr hc =>
      have hi := items?_shapes depth hc hd
      simp only [shape, Draft.json?, hi, height, Nat.add_le_add_iff_right]
      split <;> rfl
  | .obj members, 0, _, _ => by simp [shape, Draft.json?, height]
  | .obj members, depth + 1, hc, hd => by
    cases hc with
    | @obj record hc =>
      have hm := members?_memberShapes depth hc hd
      simp only [shape, Draft.json?, hm, height, Nat.add_le_add_iff_right]
      split
      · simp [ofMembers, ofList_toList]
      · rfl

theorem items?_shapes : ∀ {items : List Json} (depth : Nat), (∀ item ∈ items, item.Canonical) →
    (∀ x ∈ itemsDoubles items, ReadsBack x) →
    Draft.items? depth (shapes items) = if itemsHeight items ≤ depth then some items else none
  | [], _, _, _ => by simp [shapes, Draft.items?, itemsHeight]
  | item :: rest, depth, hc, hd => by
    simp only [itemsDoubles, List.forall_mem_append] at hd
    rw [List.forall_mem_cons] at hc
    have hv := json?_shape depth hc.1 hd.1
    have hr := items?_shapes depth hc.2 hd.2
    have hm : itemsHeight (item :: rest) ≤ depth ↔ item.height ≤ depth ∧ itemsHeight rest ≤ depth :=
      Nat.max_le
    by_cases h1 : item.height ≤ depth <;> by_cases h2 : itemsHeight rest ≤ depth <;>
      simp [shapes, Draft.items?, hv, hr, hm, h1, h2]

theorem members?_memberShapes : ∀ {members : List (String × Json)} (depth : Nat),
    (∀ member ∈ members, member.2.Canonical) → (∀ x ∈ membersDoubles members, ReadsBack x) →
    Draft.members? depth (memberShapes members) =
      if membersHeight members ≤ depth then some members else none
  | [], _, _, _ => by simp [memberShapes, Draft.members?, membersHeight]
  | (name, value) :: rest, depth, hc, hd => by
    simp only [membersDoubles, List.forall_mem_append] at hd
    rw [List.forall_mem_cons] at hc
    have hv := json?_shape depth hc.1 hd.1
    have hr := members?_memberShapes depth hc.2 hd.2
    have hm : membersHeight ((name, value) :: rest) ≤ depth ↔
        value.height ≤ depth ∧ membersHeight rest ≤ depth := Nat.max_le
    by_cases h1 : value.height ≤ depth <;> by_cases h2 : membersHeight rest ≤ depth <;>
      simp [memberShapes, Draft.members?, hv, hr, hm, h1, h2]

end

/-- A canonical value within the limit of depth is read back from its compact text. -/
theorem read?_compact {j : Json} (hc : j.Canonical) (hd : ∀ x ∈ j.doubles, ReadsBack x)
    (hh : j.height ≤ depthLimit) : read? j.compact = some j := by
  rw [read?, readWithin?, ofText?_compact, Option.bind_some, json?_shape depthLimit hc hd,
    if_pos hh]

section Typed

variable {β : Type} {toJson : β → Json} {read : Draft → Option β} {values : Named β}

theorem ofNamed_shape (toJson : β → Json) (values : Named β) :
    (Json.ofNamed toJson values).shape =
      .obj (values.toList.map fun p => (some p.1, (toJson p.2).shape)) := by
  simp [Json.ofNamed, shape, memberShapes_eq_map]

theorem named?_shape
    (h : ∀ (name : String) (v : β), values[name]? = some v → read (toJson v).shape = some v) :
    (Json.ofNamed toJson values).shape.named? read = some values := by
  have hm : ((values.toList.map fun p => (some p.1, (toJson p.2).shape)).mapM
      (Draft.namedValue? read)) = some values.toList := by
    rw [List.mapM_map]
    have hv : ∀ p ∈ values.toList,
        Draft.namedValue? read (some p.1, (toJson p.2).shape) = some (id p) := by
      intro p hp
      have hr := h p.1 p.2 (Std.ExtTreeMap.mem_toList_iff_getElem?_eq_some.1 hp)
      simp [Draft.namedValue?, hr]
    simpa [Function.comp_def] using mapM_eq_some hv
  rw [ofNamed_shape, Draft.named?, hm, Option.map_some, ofList_toList]

theorem named?_shape_eq_none {name : String} {v : β} (hv : values[name]? = some v)
    (h : read (toJson v).shape = none) : (Json.ofNamed toJson values).shape.named? read = none := by
  have hn : Draft.namedValue? read (some name, (toJson v).shape) = none := by
    simp [Draft.namedValue?, h]
  rw [ofNamed_shape, Draft.named?, mapM_eq_none (List.mem_map_of_mem
    (Std.ExtTreeMap.mem_toList_iff_getElem?_eq_some.2 hv)) hn, Option.map_none]

theorem nat?_shape {n limit : Nat} (h : n < limit) (hl : limit ≤ 2 ^ 64) :
    (Json.int n).shape.nat? limit = some n := by
  have hi : (Numeral.ofInt n).int? = some (n : Int) := Numeral.int?_ofInt (by omega) (by omega)
  simp only [shape, Draft.nat?, hi]
  exact if_pos h

theorem count?_shape {n : Nat} (h : n < 2 ^ 64) : (Json.int n).shape.count? = some n :=
  nat?_shape h (by omega)

theorem list?_shape {items : List β} (h : ∀ item ∈ items, read (toJson item).shape = some item) :
    (Json.arr (items.map toJson)).shape.list? read = some items := by
  rw [shape, shapes_eq_map, List.map_map, Draft.list?, List.mapM_map]
  simpa [Function.comp_def] using mapM_eq_some (g := id) h

theorem texts?_shape (texts : List String) :
    (Json.arr (texts.map .str)).shape.list? (·.text?) = some texts :=
  list?_shape fun _ _ => rfl

end Typed

end Json

end Concordance
