import Concordance.Proofs.Storage.Steps

namespace Concordance

theorem pairwise_le_mergeSort (l : List String) : l.mergeSort.Pairwise (· ≤ ·) := by
  have hs := @List.pairwise_mergeSort _ (fun a b : String => decide (a ≤ b))
    (fun a b c hab hbc => by simpa using (by simpa using hab : a ≤ b).trans (by simpa using hbc))
    (fun a b => by simpa using le_total a b) l
  exact hs.imp fun h => by simpa using h

theorem mergeSort_eq_of_mem_iff {l k : List String} (hl : l.Nodup) (hk : k.Nodup)
    (hs : k.Pairwise (· ≤ ·)) (h : ∀ word, word ∈ l ↔ word ∈ k) : l.mergeSort = k := by
  refine List.Perm.eq_of_pairwise (fun a b _ _ hab hba => le_antisymm hab hba)
    (pairwise_le_mergeSort l) hs ?_
  exact (List.mergeSort_perm l _).trans ((List.perm_ext_iff_of_nodup hl hk).2 h)

theorem mergeSort_congr {l k : List String} (hl : l.Nodup) (hk : k.Nodup)
    (h : ∀ word, word ∈ l ↔ word ∈ k) : l.mergeSort = k.mergeSort := by
  refine mergeSort_eq_of_mem_iff hl ?_ (pairwise_le_mergeSort k) fun word => ?_
  · exact (List.mergeSort_perm k _).nodup_iff.2 hk
  · rw [h, List.mem_mergeSort]

namespace FileTree

variable {t t' : FileTree} {d : Directory} {place name : String}

def filesIn (t : FileTree) (place : String) : List String :=
  t.nodes.toList.filterMap fun (found, node) =>
    match node with
    | .file _ => if parent found == place then some (nameOf found) else none
    | .directory => none

theorem fileNames_eq (ho : t.find d.path = .ok (place, .directory)) :
    t.fileNames d.path = .ok (t.filesIn place) := by
  unfold fileNames
  rw [ho]
  rfl

theorem mem_filesIn (ht : t.WellFormed) :
    name ∈ t.filesIn place ↔ PlainName name ∧ ∃ bytes, t.under? place name = some (.file bytes) := by
  unfold filesIn
  rw [List.mem_filterMap]
  constructor
  · rintro ⟨⟨found, node⟩, hm, hf⟩
    cases node with
    | directory => cases hf
    | file bytes =>
      obtain ⟨rfl, rfl⟩ : parent found = place ∧ nameOf found = name := by simpa using hf
      have hg := Std.ExtTreeMap.mem_toList_iff_getElem?_eq_some.1 hm
      obtain ⟨hn, hc⟩ := ht found (Std.ExtTreeMap.mem_iff_isSome_getElem?.2 (by simp [hg]))
      exact ⟨hn, bytes, by rw [under?, hc, hg]⟩
  · rintro ⟨hn, bytes, he⟩
    refine ⟨(child place name, .file bytes), Std.ExtTreeMap.mem_toList_iff_getElem?_eq_some.2 he, ?_⟩
    simp [parent_child hn.no_slash, nameOf_child place hn.no_slash]

theorem nodup_filesIn (ht : t.WellFormed) (place : String) : (t.filesIn place).Nodup := by
  unfold filesIn
  refine List.pairwise_filterMap.2 (Std.ExtTreeMap.distinct_keys_toList.imp_of_mem ?_)
  rintro ⟨p, node⟩ ⟨q, other⟩ hp hq hne name hname name' hname' rfl
  have hmem : ∀ {p : String} {node : FileNode}, (p, node) ∈ t.nodes.toList → p ∈ t.nodes := by
    intro p node hm
    have hg := Std.ExtTreeMap.mem_toList_iff_getElem?_eq_some.1 hm
    exact Std.ExtTreeMap.mem_iff_isSome_getElem?.2 (by simp [hg])
  cases node with
  | directory => cases hname
  | file bytes =>
    cases other with
    | directory => cases hname'
    | file bytes' =>
      obtain ⟨hpp, hpn⟩ : parent p = place ∧ nameOf p = name := by simpa using hname
      obtain ⟨hqp, hqn⟩ : parent q = place ∧ nameOf q = name := by simpa using hname'
      have he : p = q := by
        rw [← (ht p (hmem hp)).2, ← (ht q (hmem hq)).2, hpp, hqp, hpn, hqn]
      exact hne (by simp [he])

end FileTree

namespace FileTree

def performAll (t : FileTree) (steps : List FileStep) : Except FileFault FileTree :=
  steps.foldlM perform t

theorem performAll_cons_eq_ok {t t' : FileTree} {step : FileStep} {steps : List FileStep} :
    t.performAll (step :: steps) = .ok t' ↔
      ∃ t₁, t.perform step = .ok t₁ ∧ t₁.performAll steps = .ok t' := by
  rw [performAll, List.foldlM_cons, Result.bind_eq_ok]
  rfl

theorem performAll_append_eq_ok {t t' : FileTree} {steps more : List FileStep} :
    t.performAll (steps ++ more) = .ok t' ↔
      ∃ t₁, t.performAll steps = .ok t₁ ∧ t₁.performAll more = .ok t' := by
  rw [performAll, List.foldlM_append, Result.bind_eq_ok]
  rfl

theorem performAll_nil_eq_ok {t t' : FileTree} : t.performAll [] = .ok t' ↔ t = t' := by
  simp [performAll, pure, Except.pure]

theorem run_perform (t : FileTree) (step : FileStep) :
    (files.perform step).run t =
      match t.perform step with
      | .ok t' => (.ok (), t')
      | .error fault => (.error fault, t) := by
  unfold files
  simp only [StateT.run_bind, StateT.run_get, pure_bind]
  cases t.perform step <;> rfl

theorem run_performAll {t t' : FileTree} {steps : List FileStep}
    (h : t.performAll steps = .ok t') : (files.performAll steps).run t = (.ok (), t') := by
  induction steps generalizing t with
  | nil =>
    rw [performAll_nil_eq_ok.1 h]
    rfl
  | cons step steps ih =>
    obtain ⟨t₁, hs, hr⟩ := performAll_cons_eq_ok.1 h
    rw [Files.performAll, StateT.run_bind, run_perform, hs]
    exact ih hr

@[simp] theorem put_put (t : FileTree) (p : String) (node node' : FileNode) :
    (t.put p node).put p node' = t.put p node' := by
  have hn : ((t.nodes.insert p node).insert p node') = t.nodes.insert p node' := by
    refine Std.ExtTreeMap.ext_getElem? fun q => ?_
    simp only [Std.ExtTreeMap.getElem?_insert]
    split <;> rfl
  simp [put, hn]

end FileTree

namespace Directory

open FileTree

variable {d : Directory} {t t' : FileTree} {place key : String}

section Read

theorem path?_eq (hk : isKey key = true) : d.path? key = .ok (d.join key) := by
  rw [path?, if_pos hk]

theorem path?_eq_error (hk : isKey key = false) :
    d.path? key = .error (.storage (.invalidKey key)) := by
  rw [path?, hk]
  rfl

theorem run_load (hk : isKey key = true) (t : FileTree) :
    (d.load FileTree.files key).run t =
      (match t.findFile (d.join key) with
        | .ok found => .ok found.2
        | .error .notFound => .error (.storage (.notFound key))
        | .error fault => .error fault.error, t) := by
  have hr : (FileTree.files.read (d.join key)).run t =
      ((t.findFile (d.join key)).map Prod.snd, t) := rfl
  unfold load
  rw [path?_eq hk, StateT.run_bind, hr]
  cases t.findFile (d.join key) with
  | ok found => rfl
  | error fault => cases fault <;> rfl

theorem run_has (hk : isKey key = true) (t : FileTree) :
    (d.has FileTree.files key).run t = ((t.findFile (d.join key)).isOk, t) := by
  unfold has
  rw [path?_eq hk]
  rfl

/-- The names of the files that are not temporary. -/
def keysIn (t : FileTree) (place : String) : List String :=
  (t.filesIn place).filter fun name => !(tempSuffix.toList.isSuffixOf name.toList)

theorem mem_keysIn (ht : t.WellFormed) {name : String} : name ∈ keysIn t place ↔
    PlainName name ∧ ¬ tempSuffix.toList <:+ name.toList ∧
      ∃ bytes, t.under? place name = some (.file bytes) := by
  rw [keysIn, List.mem_filter, mem_filesIn ht, Bool.not_eq_true', ← Bool.not_eq_true,
    List.isSuffixOf_iff_suffix]
  tauto

theorem nodup_keysIn (ht : t.WellFormed) (place : String) : (keysIn t place).Nodup :=
  (nodup_filesIn ht place).filter _

theorem run_keys (ho : t.find d.path = .ok (place, .directory)) :
    (d.keys FileTree.files).run t = (.ok (keysIn t place).mergeSort, t) := by
  have hr : (FileTree.files.names d.path).run t = (t.fileNames d.path, t) := rfl
  unfold keys
  rw [StateT.run_bind, hr, fileNames_eq ho]
  rfl

theorem run_delete (hk : isKey key = true) (t : FileTree) :
    (d.delete FileTree.files key).run t =
      match t.perform (.remove (d.join key)) with
      | .ok t' => (.ok (), t')
      | .error .notFound => (.ok (), t)
      | .error fault => (.error fault.error, t) := by
  unfold delete
  rw [path?_eq hk, StateT.run_bind, run_perform]
  cases t.perform (.remove (d.join key)) with
  | ok t' => rfl
  | error fault => cases fault <;> rfl

end Read

section Save

theorem run_save_eq {σ : Type} (files : Files (StateM σ)) (hk : isKey key = true) (bytes : Bytes)
    (s : σ) : (d.save files key bytes).run s =
      match (files.performAll (d.writeSteps key bytes)).run s with
      | (.error fault, s₁) => (.error fault.error, s₁)
      | (.ok (), s₁) =>
        match (files.perform (.rename (d.temporary key) (d.join key))).run s₁ with
        | (.error _, s₂) => (.error (.storage (.renameFailed key)), s₂)
        | (.ok (), s₂) => (.ok (), s₂) := by
  rw [save, path?_eq hk, StateT.run_bind]
  rcases (files.performAll (d.writeSteps key bytes)).run s with ⟨fault | written, s₁⟩
  · rfl
  show (files.perform (.rename (d.temporary key) (d.join key)) >>= _).run s₁ =
    match (files.perform (.rename (d.temporary key) (d.join key))).run s₁ with
    | (.error _, s₂) => ((.error (.storage (.renameFailed key)) : Result Unit), s₂)
    | (.ok (), s₂) => (.ok (), s₂)
  rw [StateT.run_bind]
  rcases (files.perform (.rename (d.temporary key) (d.join key))).run s₁ with ⟨fault | renamed, s₂⟩
  · rfl
  · rfl

def saveSteps (d : Directory) (key : String) (bytes : Bytes) : List FileStep :=
  d.writeSteps key bytes ++ [.rename (d.temporary key) (d.join key)]

theorem fills_of_mem_writeSteps {bytes : Bytes} {step : FileStep}
    (hs : step ∈ d.writeSteps key bytes) : step.Fills (d.join (key ++ tempSuffix)) := by
  have hs : step = .create (d.temporary key) ∨ step = .append (d.temporary key) bytes ∨
      d.sync = true ∧ step = .sync (d.temporary key) := by
    cases hd : d.sync <;> simpa [writeSteps, hd] using hs
  rcases hs with rfl | rfl | ⟨-, rfl⟩
  · exact .create
  · exact .append bytes
  · exact .sync

variable (ho : t.find d.path = .ok (place, .directory))
include ho

theorem performAll_fill {name : String} (hn : PlainName name) (bytes : Bytes) :
    t.performAll [.create (d.join name), .append (d.join name) bytes] = .ok t' ↔
      d.admits name = .ok () ∧ t.under? place name ≠ some .directory ∧
        t.put (child place name) (.file bytes) = t' := by
  simp only [performAll_cons_eq_ok, performAll_nil_eq_ok, perform_create ho hn]
  constructor
  · rintro ⟨_, ⟨ha, hd, rfl⟩, _, happend, rfl⟩
    obtain ⟨-, start, he, rfl⟩ := (perform_append ((alikeBut_put hd []).find ho) hn).1 happend
    obtain rfl : start = [] := by simpa [eq_comm] using he
    exact ⟨ha, hd, by simp⟩
  · rintro ⟨ha, hd, rfl⟩
    refine ⟨_, ⟨ha, hd, rfl⟩, _, ?_, rfl⟩
    exact (perform_append ((alikeBut_put hd []).find ho) hn).2 ⟨ha, [], by simp, by simp⟩

theorem performAll_sync {name : String} (hn : PlainName name) (ha : d.admits name = .ok ())
    {bytes : Bytes} (he : t.under? place name = some (.file bytes)) :
    t.performAll (if d.sync then [.sync (d.join name)] else []) = .ok t' ↔ t = t' := by
  split
  · simp [performAll_cons_eq_ok, performAll_nil_eq_ok, perform_sync ho hn, ha, he]
  · exact performAll_nil_eq_ok

variable (hk : isKey key = true) (bytes : Bytes)
include hk

theorem performAll_writeSteps : t.performAll (d.writeSteps key bytes) = .ok t' ↔
    d.admits (key ++ tempSuffix) = .ok () ∧ t.under? place (key ++ tempSuffix) ≠ some .directory ∧
      t.put (child place (key ++ tempSuffix)) (.file bytes) = t' := by
  have hn := plainName_temporary (plainName_of_isKey hk)
  rw [writeSteps, performAll_append_eq_ok]
  simp only [temporary, performAll_fill ho hn bytes]
  constructor
  · rintro ⟨_, ⟨ha, hd, rfl⟩, hs⟩
    have ho₁ := (alikeBut_put hd bytes).find ho
    exact ⟨ha, hd, (performAll_sync ho₁ hn ha (under?_put ..)).1 hs⟩
  · rintro ⟨ha, hd, rfl⟩
    have ho₁ := (alikeBut_put hd bytes).find ho
    exact ⟨_, ⟨ha, hd, rfl⟩, (performAll_sync ho₁ hn ha (under?_put ..)).2 rfl⟩

/-- Two names that a save can use: the file system takes both, and neither is that of a
directory. -/
structure Writable (d : Directory) (t : FileTree) (place key : String) : Prop where
  temporary : d.admits (key ++ tempSuffix) = .ok ()
  own : d.admits key = .ok ()
  no_temporary : t.under? place (key ++ tempSuffix) ≠ some .directory
  no_own : t.under? place key ≠ some .directory

theorem performAll_saveSteps : t.performAll (d.saveSteps key bytes) = .ok t' ↔
    d.Writable t place key ∧
      ((t.put (child place (key ++ tempSuffix)) (.file bytes)).erase
        (child place (key ++ tempSuffix))).put (child place key) (.file bytes) = t' := by
  have hp := plainName_of_isKey hk
  have hn := plainName_temporary hp
  rw [saveSteps, performAll_append_eq_ok]
  simp only [performAll_writeSteps ho hk, performAll_cons_eq_ok, performAll_nil_eq_ok, temporary]
  constructor
  · rintro ⟨_, ⟨hta, htd, rfl⟩, _, hr, rfl⟩
    have hal := alikeBut_put htd bytes
    obtain ⟨-, start, he, ha, hd, rfl⟩ := (perform_rename (hal.find ho) hn hp).1 hr
    obtain rfl : bytes = start := by simpa using he
    rw [Ne, hal.directory] at hd
    exact ⟨⟨hta, ha, htd, hd⟩, rfl⟩
  · rintro ⟨⟨hta, ha, htd, hd⟩, rfl⟩
    have hal := alikeBut_put htd bytes
    refine ⟨_, ⟨hta, htd, rfl⟩, _, ?_, rfl⟩
    exact (perform_rename (hal.find ho) hn hp).2
      ⟨hta, bytes, under?_put .., ha, by rwa [Ne, hal.directory], rfl⟩

structure Saves (place key : String) (bytes : Bytes) (t t' : FileTree) : Prop where
  alike : AlikeBut place [key, key ++ tempSuffix] t t'
  own : t'.under? place key = some (.file bytes)
  no_temporary : t'.under? place (key ++ tempSuffix) = none

theorem saves_of_performAll (h : t.performAll (d.saveSteps key bytes) = .ok t') :
    Saves place key bytes t t' := by
  obtain ⟨hw, rfl⟩ := (performAll_saveSteps ho hk bytes).1 h
  have hp := plainName_of_isKey hk
  have hn := plainName_temporary hp
  have hput := alikeBut_put hw.no_temporary bytes
  have htemporary : (t.put (child place (key ++ tempSuffix)) (.file bytes)).under? place
      (key ++ tempSuffix) ≠ some .directory := by simp
  have herase := alikeBut_erase htemporary
  have hkey : ((t.put (child place (key ++ tempSuffix)) (.file bytes)).erase
      (child place (key ++ tempSuffix))).under? place key ≠ some .directory := by
    rw [Ne, herase.directory, hput.directory]
    exact hw.no_own
  have hown := alikeBut_put hkey bytes
  refine ⟨?_, under?_put .., ?_⟩
  · exact ((hput.mono (by simp)).trans (herase.mono (by simp))).trans (hown.mono (by simp))
  · rw [hown.under? (by simpa using hp) hn (by simpa using temporary_ne key hk)]
    exact under?_erase ..

omit ho in
theorem run_save (h : t.performAll (d.saveSteps key bytes) = .ok t') :
    (d.save FileTree.files key bytes).run t = (.ok (), t') := by
  obtain ⟨t₁, hw, hrename⟩ := performAll_append_eq_ok.1 h
  obtain ⟨_, hr, he⟩ := performAll_cons_eq_ok.1 hrename
  obtain rfl := performAll_nil_eq_ok.1 he
  simp only [run_save_eq _ hk, run_performAll hw, run_perform, hr]

end Save

end Directory

end Concordance
