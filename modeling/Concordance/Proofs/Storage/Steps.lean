import Concordance.Proofs.Storage.Entries

namespace Concordance

theorem Directory.isKey_iff {key : String} : isKey key = true ↔
    PlainName key ∧ '\\' ∉ key.toList ∧ ¬ tempSuffix.toList <:+ key.toList := by
  have hp : PlainName key ↔ key ≠ "" ∧ key ≠ "." ∧ key ≠ ".." ∧ '/' ∉ key.toList :=
    ⟨fun h => ⟨h.ne_empty, h.ne_dot, h.ne_dots, h.no_slash⟩,
      fun ⟨he, hd, hdd, hs⟩ => ⟨he, hd, hdd, hs⟩⟩
  have hs : tempSuffix.toList.isSuffixOf key.toList = false ↔
      ¬ tempSuffix.toList <:+ key.toList := by
    rw [← List.isSuffixOf_iff_suffix, Bool.not_eq_true]
  rw [hp, ← hs]
  simp [isKey, and_assoc]

theorem Directory.plainName_of_isKey {key : String} (h : isKey key = true) : PlainName key :=
  (isKey_iff.1 h).1

theorem Directory.isSuffix_temporary (key : String) :
    tempSuffix.toList <:+ (key ++ tempSuffix).toList := by
  rw [String.toList_append]
  exact List.suffix_append _ _

theorem Directory.plainName_temporary {key : String} (h : PlainName key) :
    PlainName (key ++ tempSuffix) := by
  have hl : 4 < (key ++ tempSuffix).toList.length := by
    have hk : 0 < key.toList.length := List.length_pos_iff.2 (by simpa using h.ne_empty)
    rw [String.toList_append, List.length_append]
    have ht : tempSuffix.toList.length = 4 := rfl
    omega
  have hne : ∀ word : String, word.toList.length ≤ 4 → key ++ tempSuffix ≠ word := by
    rintro word hw rfl
    omega
  refine ⟨hne _ (by decide), hne _ (by decide), hne _ (by decide), ?_⟩
  rw [String.toList_append, List.mem_append]
  rintro (hs | hs)
  · exact h.no_slash hs
  · exact absurd hs (by decide)

theorem Directory.plainName_of_mem {key : String} (h : isKey key = true) :
    ∀ name ∈ [key, key ++ tempSuffix], PlainName name := by
  simpa using ⟨plainName_of_isKey h, plainName_temporary (plainName_of_isKey h)⟩

theorem Directory.ne_temporary (key : String) {name : String}
    (h : ¬ tempSuffix.toList <:+ name.toList) : name ≠ key ++ tempSuffix := by
  rintro rfl
  exact h (isSuffix_temporary key)

theorem Directory.temporary_ne (key : String) {other : String} (ho : isKey other = true) :
    key ++ tempSuffix ≠ other :=
  (ne_temporary key (isKey_iff.1 ho).2.2).symm

inductive FileStep.Fills (path : String) : FileStep → Prop
  | create : Fills path (.create path)
  | append (bytes : Bytes) : Fills path (.append path bytes)
  | sync : Fills path (.sync path)

namespace FileTree

/-- Trees that differ at most in the files under these names of the directory at a place. -/
structure AlikeBut (place : String) (names : List String) (t t' : FileTree) : Prop where
  current : t'.current = t.current
  nodes : ∀ p : String, (∀ name ∈ names, p ≠ child place name) → t'.nodes[p]? = t.nodes[p]?
  directories : ∀ p : String, t'.nodes[p]? = some .directory ↔ t.nodes[p]? = some .directory

section AlikeBut

variable {place : String} {names more : List String} {t t' t'' : FileTree}

protected theorem AlikeBut.refl (place : String) (names : List String) (t : FileTree) :
    AlikeBut place names t t := ⟨rfl, fun _ _ => rfl, fun _ => .rfl⟩

theorem AlikeBut.trans (h : AlikeBut place names t t') (h' : AlikeBut place names t' t'') :
    AlikeBut place names t t'' where
  current := h'.current.trans h.current
  nodes p hp := (h'.nodes p hp).trans (h.nodes p hp)
  directories p := (h'.directories p).trans (h.directories p)

theorem AlikeBut.mono (h : AlikeBut place names t t') (hs : names ⊆ more) :
    AlikeBut place more t t' :=
  ⟨h.current, fun p hp => h.nodes p fun name hn => hp name (hs hn), h.directories⟩

theorem AlikeBut.directory (h : AlikeBut place names t t') (name : String) :
    t'.under? place name = some .directory ↔ t.under? place name = some .directory :=
  h.directories _

theorem AlikeBut.under? (h : AlikeBut place names t t') (hn : ∀ name ∈ names, PlainName name)
    {other : String} (ho : PlainName other) (hm : other ∉ names) :
    t'.under? place other = t.under? place other :=
  h.nodes _ fun name hname he => hm ((child_inj ho (hn name hname)).1 he ▸ hname)

theorem foldlM_enter {f g : String → String → Except FileFault String}
    (h : ∀ place name found, f place name = .ok found → g place name = .ok found)
    {names : List String} {place found : String} (hf : names.foldlM f place = .ok found) :
    names.foldlM g place = .ok found := by
  induction names generalizing place with
  | nil => exact hf
  | cons name names ih =>
    rw [List.foldlM_cons] at hf ⊢
    cases hs : f place name with
    | error fault =>
      rw [hs] at hf
      cases hf
    | ok next =>
      rw [hs] at hf
      rw [h _ _ _ hs]
      exact ih hf

theorem AlikeBut.find (h : AlikeBut place names t t') {path found : String}
    (hf : t.find path = .ok (found, .directory)) : t'.find path = .ok (found, .directory) := by
  obtain ⟨hc, hf⟩ := t.find_eq_directory.1 hf
  have hs : t'.start path = t.start path := by simp only [start, h.current]
  refine t'.find_eq_directory.2 ⟨hc, ?_⟩
  rw [hs]
  refine foldlM_enter (fun place name found he => ?_) hf
  have hd : ∀ p, t.node? p = some .directory → t'.node? p = some .directory := by
    intro p hp
    unfold node? at hp ⊢
    split
    · rfl
    next hne =>
      rw [if_neg hne] at hp
      exact (h.directories p).2 hp
  rw [enter_eq_ok] at he ⊢
  unfold lookup at he ⊢
  split_ifs at he ⊢ with hdot hdots hl
  · exact he
  · exact he
  · cases hn : t.node? (child place name) with
    | none => simp [hn] at he
    | some node =>
      simp only [hn, Except.ok.injEq, Prod.mk.injEq] at he
      obtain ⟨rfl, rfl⟩ := he
      simp [hd _ hn]

theorem AlikeBut.wellFormed (h : AlikeBut place names t t') (ht : t.WellFormed)
    (hn : ∀ name ∈ names, PlainName name) : t'.WellFormed := by
  intro p hp
  by_cases hm : ∃ name ∈ names, p = child place name
  · obtain ⟨name, hname, rfl⟩ := hm
    rw [nameOf_child place (hn name hname).no_slash, parent_child (hn name hname).no_slash]
    exact ⟨hn name hname, rfl⟩
  · refine ht p ?_
    rw [Std.ExtTreeMap.mem_iff_isSome_getElem?] at hp ⊢
    rwa [← h.nodes p fun name hname he => hm ⟨name, hname, he⟩]

end AlikeBut

section Put

variable {t : FileTree} {place name : String}

theorem put_getElem? (t : FileTree) (place p : String) (node : FileNode) :
    (t.put place node).nodes[p]? = if place = p then some node else t.nodes[p]? := by
  simp [put, Std.ExtTreeMap.getElem?_insert]

theorem erase_getElem? (t : FileTree) (place p : String) :
    (t.erase place).nodes[p]? = if place = p then none else t.nodes[p]? := by
  simp [erase, Std.ExtTreeMap.getElem?_erase]

theorem wellFormed_empty : WellFormed {} := fun _ hp => absurd hp Std.ExtTreeMap.not_mem_empty

theorem WellFormed.put (ht : t.WellFormed) (hn : PlainName name) (place : String) (node : FileNode) :
    (t.put (child place name) node).WellFormed := by
  intro p hp
  rcases Std.ExtTreeMap.mem_insert.1 hp with he | hp
  · obtain rfl := Std.LawfulEqCmp.compare_eq_iff_eq.1 he
    rw [nameOf_child place hn.no_slash, parent_child hn.no_slash]
    exact ⟨hn, rfl⟩
  · exact ht p hp

@[simp] theorem under?_put (t : FileTree) (place name : String) (node : FileNode) :
    (t.put (child place name) node).under? place name = some node := by
  rw [under?, put_getElem?, if_pos rfl]

@[simp] theorem under?_erase (t : FileTree) (place name : String) :
    (t.erase (child place name)).under? place name = none := by
  rw [under?, erase_getElem?, if_pos rfl]

variable (hd : t.under? place name ≠ some .directory)
include hd

theorem alikeBut_put (bytes : Bytes) :
    AlikeBut place [name] t (t.put (child place name) (.file bytes)) where
  current := rfl
  nodes p hp := by rw [put_getElem?, if_neg (by simpa using (hp name (by simp)).symm)]
  directories p := by
    rw [put_getElem?]
    split
    next he =>
      subst he
      simpa [under?] using hd
    · rfl

theorem alikeBut_erase : AlikeBut place [name] t (t.erase (child place name)) where
  current := rfl
  nodes p hp := by rw [erase_getElem?, if_neg (by simpa using (hp name (by simp)).symm)]
  directories p := by
    rw [erase_getElem?]
    split
    next he =>
      subst he
      simpa [under?] using hd
    · rfl

end Put

section Open

variable {t t' : FileTree} {d : Directory} {place name target : String} {bytes : Bytes}
  (ho : t.find d.path = .ok (place, .directory)) (hn : PlainName name)
include ho hn

theorem findFile_bind_eq_ok {α : Type} {f : String × Bytes → Except FileFault α} {a : α} :
    t.findFile (d.join name) >>= f = .ok a ↔ d.admits name = .ok () ∧
      ∃ bytes, t.under? place name = some (.file bytes) ∧ f (child place name, bytes) = .ok a := by
  rw [findFile_join ho hn]
  cases d.admits name with
  | error fault => simp [bind, Except.bind]
  | ok admitted =>
    cases t.under? place name with
    | none => simp [bind, Except.bind]
    | some node => cases node <;> simp [bind, Except.bind]

theorem fileSlot_bind_eq_ok {α : Type} {f : String → Except FileFault α} {a : α} :
    t.fileSlot (d.join name) >>= f = .ok a ↔ d.admits name = .ok () ∧
      t.under? place name ≠ some .directory ∧ f (child place name) = .ok a := by
  rw [fileSlot_join ho hn]
  cases d.admits name with
  | error fault => simp [bind, Except.bind]
  | ok admitted =>
    cases t.under? place name with
    | none => simp [bind, Except.bind]
    | some node => cases node <;> simp [bind, Except.bind]

theorem perform_create : t.perform (.create (d.join name)) = .ok t' ↔
    d.admits name = .ok () ∧ t.under? place name ≠ some .directory ∧
      t.put (child place name) (.file []) = t' := by
  have hs : t.perform (.create (d.join name)) = t.fileSlot (d.join name) >>= fun p =>
      .ok (t.put p (.file [])) := rfl
  simp only [hs, fileSlot_bind_eq_ok ho hn, Except.ok.injEq]

theorem perform_append : t.perform (.append (d.join name) bytes) = .ok t' ↔
    d.admits name = .ok () ∧ ∃ start, t.under? place name = some (.file start) ∧
      t.put (child place name) (.file (start ++ bytes)) = t' := by
  have hs : t.perform (.append (d.join name) bytes) = t.findFile (d.join name) >>= fun found =>
      .ok (t.put found.1 (.file (found.2 ++ bytes))) := rfl
  simp only [hs, findFile_bind_eq_ok ho hn, Except.ok.injEq]

theorem perform_sync : t.perform (.sync (d.join name)) = .ok t' ↔
    d.admits name = .ok () ∧ ∃ start, t.under? place name = some (.file start) ∧ t = t' := by
  have hs : t.perform (.sync (d.join name)) = t.findFile (d.join name) >>= fun _ => .ok t := rfl
  simp only [hs, findFile_bind_eq_ok ho hn, Except.ok.injEq]

theorem perform_remove : t.perform (.remove (d.join name)) = .ok t' ↔
    d.admits name = .ok () ∧ ∃ start, t.under? place name = some (.file start) ∧
      t.erase (child place name) = t' := by
  have hs : t.perform (.remove (d.join name)) = t.findFile (d.join name) >>= fun found =>
      .ok (t.erase found.1) := rfl
  simp only [hs, findFile_bind_eq_ok ho hn, Except.ok.injEq]

theorem perform_rename (ht : PlainName target) :
    t.perform (.rename (d.join name) (d.join target)) = .ok t' ↔
      d.admits name = .ok () ∧ ∃ start, t.under? place name = some (.file start) ∧
        d.admits target = .ok () ∧ t.under? place target ≠ some .directory ∧
          (t.erase (child place name)).put (child place target) (.file start) = t' := by
  have hs : t.perform (.rename (d.join name) (d.join target)) =
      t.findFile (d.join name) >>= fun found => t.fileSlot (d.join target) >>= fun p =>
        .ok ((t.erase found.1).put p (.file found.2)) := rfl
  simp only [hs, findFile_bind_eq_ok ho hn, fileSlot_bind_eq_ok ho ht, Except.ok.injEq]

theorem perform_fills {step : FileStep} (hf : step.Fills (d.join name))
    (h : t.perform step = .ok t') : AlikeBut place [name] t t' := by
  cases hf with
  | create =>
    obtain ⟨-, hd, rfl⟩ := (perform_create ho hn).1 h
    exact alikeBut_put hd []
  | append bytes =>
    obtain ⟨-, start, he, rfl⟩ := (perform_append ho hn).1 h
    exact alikeBut_put (by simp [he]) _
  | sync =>
    obtain ⟨-, start, -, rfl⟩ := (perform_sync ho hn).1 h
    exact .refl place _ _

end Open

end FileTree

end Concordance
