import Concordance.Proofs.Storage.Atomicity
import Concordance.Storage.Memory

/-!
A store in a directory and a store in memory.  Both give the same answers to the same operations if
the directory is empty at first and the file system takes the names, and an operation on a key goes
to the file of the key and to its temporary file alone.
-/

namespace Concordance

inductive StoreOp where
  | save (key : String) (bytes : Bytes)
  | load (key : String)
  | has (key : String)
  | delete (key : String)
  | keys

inductive StoreAnswer where
  | done (outcome : Result Unit)
  | bytes (outcome : Result Bytes)
  | found (outcome : Bool)
  | keys (outcome : Result (List String))

namespace StoreOp

def key? : StoreOp → Option String
  | .save key _ | .load key | .has key | .delete key => some key
  | .keys => none

def names : StoreOp → List String
  | .save key _ => [key ++ Directory.tempSuffix, key]
  | .load key | .has key | .delete key => [key]
  | .keys => []

def refusal (fault : Error) : StoreOp → StoreAnswer
  | .save _ _ | .delete _ => .done (.error fault)
  | .load _ => .bytes (.error fault)
  | .has _ => .found false
  | .keys => .keys (.error fault)

end StoreOp

namespace Storage

variable {m : Type → Type} [Monad m]

def answer (s : Storage m) : StoreOp → m StoreAnswer
  | .save key bytes => .done <$> s.save key bytes
  | .load key => .bytes <$> s.load key
  | .has key => .found <$> s.has key
  | .delete key => .done <$> s.delete key
  | .keys => .keys <$> s.keys

def answers (s : Storage m) (ops : List StoreOp) : m (List StoreAnswer) := ops.mapM s.answer

end Storage

namespace Directory

open FileTree

/-- Whether the key of an operation, if any, is a key, and the file system takes its names. -/
structure Accepts (d : Directory) (op : StoreOp) : Prop where
  key : ∀ key ∈ op.key?, isKey key = true
  names : ∀ name ∈ op.names, d.admits name = .ok ()

/-- A tree in which the directory at a place keeps what is in memory. -/
structure Mirrors (d : Directory) (place : String) (t : FileTree) (s : Memory) : Prop where
  wellFormed : t.WellFormed
  opens : t.find d.path = .ok (place, .directory)
  kept : ∀ name, PlainName name → ¬ tempSuffix.toList <:+ name.toList →
    t.under? place name = s.entries[name]?.map .file
  no_directory : ∀ name, PlainName name → t.under? place name ≠ some .directory
  keys : ∀ key ∈ s.entries, isKey key = true

namespace Mirrors

variable {d : Directory} {place key : String} {t t' : FileTree} {s : Memory}

theorem under?_eq (h : Mirrors d place t s) (hk : isKey key = true) :
    t.under? place key = s.entries[key]?.map .file :=
  h.kept key (plainName_of_isKey hk) (isKey_iff.1 hk).2.2

theorem findFile_eq (h : Mirrors d place t s) (hk : isKey key = true)
    (ha : d.admits key = .ok ()) : t.findFile (d.join key) =
      match s.entries[key]? with
      | some bytes => .ok (child place key, bytes)
      | none => .error .notFound := by
  rw [findFile_join h.opens (plainName_of_isKey hk), ha, h.under?_eq hk]
  cases s.entries[key]? <;> rfl

/-- Where a key and its temporary file change and nothing else, it is enough to look at the key. -/
theorem change (h : Mirrors d place t s) (hk : isKey key = true)
    (halike : AlikeBut place [key, key ++ tempSuffix] t t') {s' : Memory}
    (hs : ∀ name, name ≠ key → s'.entries[name]? = s.entries[name]?)
    (he : t'.under? place key = s'.entries[key]?.map .file) : Mirrors d place t' s' where
  wellFormed := halike.wellFormed h.wellFormed (plainName_of_mem hk)
  opens := halike.find h.opens
  kept name hn ht := by
    by_cases hne : name = key
    · subst hne
      exact he
    have hm : name ∉ [key, key ++ tempSuffix] := by simp [hne, ne_temporary key ht]
    rw [halike.under? (plainName_of_mem hk) hn hm, hs name hne, h.kept name hn ht]
  no_directory name hn := by
    rw [Ne, halike.directory]
    exact h.no_directory name hn
  keys name hname := by
    by_cases hne : name = key
    · exact hne ▸ hk
    · refine h.keys name ?_
      rw [Std.ExtTreeMap.mem_iff_isSome_getElem?] at hname ⊢
      rwa [← hs name hne]

theorem save (h : Mirrors d place t s) (hk : isKey key = true)
    (hta : d.admits (key ++ tempSuffix) = .ok ()) (ha : d.admits key = .ok ()) (bytes : Bytes) :
    ∃ t', (d.save FileTree.files key bytes).run t = (.ok (), t') ∧
      Mirrors d place t' (s.save key bytes) := by
  have hp := plainName_of_isKey hk
  have hw : d.Writable t place key :=
    ⟨hta, ha, h.no_directory _ (plainName_temporary hp), h.no_directory _ hp⟩
  have hsteps := (performAll_saveSteps h.opens hk bytes).2 ⟨hw, rfl⟩
  have hsaves := saves_of_performAll h.opens hk bytes hsteps
  refine ⟨_, run_save hk bytes hsteps, h.change hk hsaves.alike (fun name hne => ?_) ?_⟩
  · simp [Memory.save, Std.ExtTreeMap.getElem?_insert, hne.symm]
  · simp [Memory.save, hsaves.own]

theorem load (h : Mirrors d place t s) (hk : isKey key = true) (ha : d.admits key = .ok ()) :
    (d.load FileTree.files key).run t = (s.load key, t) := by
  rw [run_load hk, h.findFile_eq hk ha, Memory.load]
  cases s.entries[key]? <;> rfl

theorem has (h : Mirrors d place t s) (hk : isKey key = true) (ha : d.admits key = .ok ()) :
    (d.has FileTree.files key).run t = (s.entries.contains key, t) := by
  rw [run_has hk, h.findFile_eq hk ha, ← Std.ExtTreeMap.isSome_getElem?_eq_contains]
  cases s.entries[key]? <;> rfl

theorem delete (h : Mirrors d place t s) (hk : isKey key = true) (ha : d.admits key = .ok ()) :
    ∃ t', (d.delete FileTree.files key).run t = (.ok (), t') ∧ Mirrors d place t' (s.delete key) := by
  have hs : ∀ name, name ≠ key → (s.delete key).entries[name]? = s.entries[name]? := by
    intro name hne
    simp [Memory.delete, Std.ExtTreeMap.getElem?_erase, hne.symm]
  have hd : (s.delete key).entries[key]? = none := by simp [Memory.delete]
  have hr : t.perform (.remove (d.join key)) =
      t.findFile (d.join key) >>= fun found => .ok (t.erase found.1) := rfl
  rw [run_delete hk, hr, h.findFile_eq hk ha]
  have hentry := h.under?_eq hk
  cases he : s.entries[key]? with
  | none =>
    rw [he] at hentry
    exact ⟨t, rfl, h.change hk (.refl place _ t) hs (by rw [hentry, hd])⟩
  | some bytes =>
    have halike := alikeBut_erase (h.no_directory key (plainName_of_isKey hk))
    exact ⟨_, rfl, h.change hk (halike.mono (by simp)) hs (by rw [under?_erase, hd]; rfl)⟩

theorem keysIn_eq (h : Mirrors d place t s) : (keysIn t place).mergeSort = s.entries.keys := by
  refine mergeSort_eq_of_mem_iff (nodup_keysIn h.wellFormed place) Std.ExtTreeMap.nodup_keys ?_ ?_
  · exact Std.ExtTreeMap.ordered_keys.imp fun hlt => (compare_lt_iff_lt.1 hlt).le
  · intro name
    rw [mem_keysIn h.wellFormed, Std.ExtTreeMap.mem_keys, Std.ExtTreeMap.mem_iff_isSome_getElem?]
    constructor
    · rintro ⟨hn, hs, bytes, he⟩
      rw [h.kept name hn hs] at he
      cases hg : s.entries[name]? <;> simp_all
    · intro hsome
      have hk := h.keys name (Std.ExtTreeMap.mem_iff_isSome_getElem?.2 hsome)
      obtain ⟨bytes, hb⟩ := Option.isSome_iff_exists.1 hsome
      exact ⟨plainName_of_isKey hk, (isKey_iff.1 hk).2.2, bytes, by rw [h.under?_eq hk, hb, Option.map_some]⟩

theorem answer (h : Mirrors d place t s) {op : StoreOp} (ha : d.Accepts op) :
    ∃ t', ((d.storage FileTree.files).answer op).run t =
        (((Memory.storage.answer op).run s).1, t') ∧
      Mirrors d place t' ((Memory.storage.answer op).run s).2 := by
  cases op with
  | save key bytes =>
    obtain ⟨t', hrun, hm⟩ := h.save (ha.key key rfl) (ha.names _ (by simp [StoreOp.names]))
      (ha.names _ (by simp [StoreOp.names])) bytes
    refine ⟨t', ?_, hm⟩
    rw [Storage.answer, StateT.run_map, storage, hrun]
    rfl
  | load key =>
    refine ⟨t, ?_, h⟩
    rw [Storage.answer, StateT.run_map, storage,
      h.load (ha.key key rfl) (ha.names _ (by simp [StoreOp.names]))]
    rfl
  | has key =>
    refine ⟨t, ?_, h⟩
    rw [Storage.answer, StateT.run_map, storage,
      h.has (ha.key key rfl) (ha.names _ (by simp [StoreOp.names]))]
    rfl
  | delete key =>
    obtain ⟨t', hrun, hm⟩ := h.delete (ha.key key rfl) (ha.names _ (by simp [StoreOp.names]))
    refine ⟨t', ?_, hm⟩
    rw [Storage.answer, StateT.run_map, storage, hrun]
    rfl
  | keys =>
    refine ⟨t, ?_, h⟩
    rw [Storage.answer, StateT.run_map, storage, run_keys h.opens, h.keysIn_eq]
    rfl

theorem answers (h : Mirrors d place t s) {ops : List StoreOp} (ha : ∀ op ∈ ops, d.Accepts op) :
    (((d.storage FileTree.files).answers ops).run t).1 =
      ((Memory.storage.answers ops).run s).1 := by
  induction ops generalizing t s with
  | nil => rfl
  | cons op rest ih =>
    obtain ⟨t', hrun, hm⟩ := h.answer (ha op (by simp))
    have hrest := ih hm fun op' hop => ha op' (by simp [hop])
    simp only [Storage.answers, List.mapM_cons, StateT.run_bind, hrun] at hrest ⊢
    exact congrArg _ hrest

end Mirrors

end Directory

def FileStep.paths : FileStep → List String
  | .makeDir path | .create path | .append path _ | .sync path | .remove path => [path]
  | .rename source target => [source, target]

/-- Two file systems that do the same with these paths. -/
structure Files.AlikeOn {m : Type → Type} (paths : List String) (files files' : Files m) : Prop where
  perform : ∀ step : FileStep, step.paths ⊆ paths → files.perform step = files'.perform step
  read : ∀ path ∈ paths, files.read path = files'.read path
  isFile : ∀ path ∈ paths, files.isFile path = files'.isFile path
  isDirectory : ∀ path ∈ paths, files.isDirectory path = files'.isDirectory path

theorem Files.AlikeOn.performAll {m : Type → Type} [Monad m] {paths : List String}
    {files files' : Files m} (h : AlikeOn paths files files') {steps : List FileStep}
    (hs : ∀ step ∈ steps, step.paths ⊆ paths) : files.performAll steps = files'.performAll steps := by
  induction steps with
  | nil => rfl
  | cons step steps ih =>
    rw [Files.performAll, Files.performAll, h.perform step (hs step (by simp)),
      ih fun step' hm => hs step' (by simp [hm])]

theorem FileStep.Fills.paths {path : String} {step : FileStep} (h : step.Fills path) :
    step.paths = [path] := by
  cases h <;> rfl

namespace Directory

open FileTree

section Confined

variable {m : Type → Type} [Monad m] {d : Directory} {op : StoreOp} {key : String}
  (hop : op.key? = some key)
include hop

theorem answer_refused [LawfulMonad m] (hk : isKey key = false) (files : Files m) :
    (d.storage files).answer op = pure (op.refusal (.storage (.invalidKey key))) := by
  cases op with
  | keys => cases hop
  | save | load | has | delete =>
    cases hop
    simp only [Storage.answer, storage, save, load, has, delete, path?_eq_error hk, map_pure,
      StoreOp.refusal]

/-- An operation on a key goes to the file of the key and to the temporary file alone. -/
theorem answer_congr (hk : isKey key = true) {files files' : Files m}
    (h : Files.AlikeOn [d.join key, d.temporary key] files files') :
    (d.storage files).answer op = (d.storage files').answer op := by
  have hread := h.read (d.join key) (by simp)
  have hfile := h.isFile (d.join key) (by simp)
  have hremove := h.perform (.remove (d.join key)) (by simp [FileStep.paths])
  have hrename := h.perform (.rename (d.temporary key) (d.join key)) (by simp [FileStep.paths])
  cases op with
  | keys => cases hop
  | save _ bytes =>
    cases hop
    have hwrite : files.performAll (d.writeSteps key bytes) =
        files'.performAll (d.writeSteps key bytes) :=
      h.performAll fun step hs => by simp [(fills_of_mem_writeSteps hs).paths, temporary]
    simp only [Storage.answer, storage, save, path?_eq hk, hwrite, hrename]
  | load =>
    cases hop
    simp only [Storage.answer, storage, load, path?_eq hk, hread]
  | has =>
    cases hop
    simp only [Storage.answer, storage, has, path?_eq hk, hfile]
  | delete =>
    cases hop
    simp only [Storage.answer, storage, delete, path?_eq hk, hremove]

theorem answer_alikeBut {t : FileTree} {place : String}
    (ho : t.find d.path = .ok (place, .directory)) (hk : isKey key = true) :
    AlikeBut place [key, key ++ tempSuffix] t
      (((d.storage FileTree.files).answer op).run t).2 := by
  cases op with
  | keys => cases hop
  | save _ bytes =>
    cases hop
    rw [Storage.answer, StateT.run_map]
    obtain ⟨done, rest, hs, hl, -⟩ := files_fallible.left_save d hk bytes t
    by_cases hr : rest = []
    · subst hr
      rw [List.append_nil] at hs
      cases hl with
      | complete hl => exact (saves_of_performAll ho hk bytes (hs ▸ hl)).alike
    · exact (hl.unfinished ho hk hs hr).mono (by simp)
  | load =>
    cases hop
    rw [Storage.answer, StateT.run_map, storage, run_load hk]
    exact .refl place _ t
  | has =>
    cases hop
    rw [Storage.answer, StateT.run_map, storage, run_has hk]
    exact .refl place _ t
  | delete =>
    cases hop
    rw [Storage.answer, StateT.run_map, storage, run_delete hk]
    cases hp : t.perform (.remove (d.join key)) with
    | ok t' =>
      obtain ⟨-, start, he, rfl⟩ := (perform_remove ho (plainName_of_isKey hk)).1 hp
      exact (alikeBut_erase (by simp [he])).mono (by simp)
    | error fault => cases fault <;> exact .refl place _ t

end Confined

theorem join_inj {d : Directory} {name other : String} (h : d.join name = d.join other) :
    name = other := by
  unfold join at h
  split_ifs at h <;> simpa using h

/-- A store in a directory that is empty at first answers as one in memory does, and no operation
goes to a file of which it has not the key. -/
theorem storage_refines {t : FileTree} (ht : t.WellFormed) {d : Directory} {place : String}
    (ho : t.find d.path = .ok (place, .directory)) :
    ((∀ name, PlainName name → t.under? place name = none) →
      ∀ ops, (∀ op ∈ ops, d.Accepts op) →
        (((d.storage FileTree.files).answers ops).run t).1 =
          ((Memory.storage.answers ops).run {}).1) ∧
    ∀ (op : StoreOp) (key : String), op.key? = some key →
      (isKey key = false → ∀ {m : Type → Type} [Monad m] [LawfulMonad m] (files : Files m),
        (d.storage files).answer op = pure (op.refusal (.storage (.invalidKey key)))) ∧
      (isKey key = true →
        (∀ {m : Type → Type} [Monad m] (files files' : Files m),
          Files.AlikeOn [d.join key, d.temporary key] files files' →
            (d.storage files).answer op = (d.storage files').answer op) ∧
        AlikeBut place [key, key ++ tempSuffix] t
          (((d.storage FileTree.files).answer op).run t).2 ∧
        ∀ other, isKey other = true → d.temporary key ≠ d.join other) := by
  refine ⟨fun hempty ops ha => ?_, fun op key hop => ⟨fun hk m _ _ files => ?_, fun hk => ?_⟩⟩
  · have hm : Mirrors d place t {} := by
      refine ⟨ht, ho, fun name hn _ => ?_, fun name hn => ?_, fun key hk => ?_⟩
      · simp [hempty name hn]
      · simp [hempty name hn]
      · exact absurd hk Std.ExtTreeMap.not_mem_empty
    exact hm.answers ha
  · exact answer_refused hop hk files
  · exact ⟨fun files files' h => answer_congr hop hk h, answer_alikeBut hop ho hk,
      fun other hother he => temporary_ne key hother (join_inj he)⟩

theorem storage_refines_deleted :
    let d : Directory := ⟨"store", true⟩
    let t := ({} : FileTree).put "store" .directory
    let ops := [.save "b" [2], .save "a" [1], .delete "b", .load "b", .has "a", .keys]
    let unlisted := { FileTree.files with names := fun _ => pure (.error .refused) }
    t.WellFormed ∧ t.find d.path = .ok ("store", .directory) ∧
      (∀ name, PlainName name → t.under? "store" name = none) ∧ (∀ op ∈ ops, d.Accepts op) ∧
      (((d.storage FileTree.files).answers ops).run t).1 =
        [.done (.ok ()), .done (.ok ()), .done (.ok ()),
          .bytes (.error (.storage (.notFound "b"))), .found true, .keys (.ok ["a"])] ∧
      isKey "../a" = false ∧ (d.storage FileTree.files).answer (.delete "../a") =
        pure (.done (.error (.storage (.invalidKey "../a")))) ∧
      isKey "a" = true ∧ Files.AlikeOn [d.join "a", d.temporary "a"] FileTree.files unlisted ∧
      (d.storage FileTree.files).answer (.load "a") = (d.storage unlisted).answer (.load "a") ∧
      isKey "a.t" = true ∧ d.temporary "a" ≠ d.join "a.t" := by
  intro d t ops unlisted
  have hw : t.WellFormed :=
    wellFormed_empty.put ⟨by decide, by decide, by decide, by decide⟩ "" .directory
  have ho : t.find d.path = .ok ("store", .directory) := by decide
  have hempty : ∀ name, PlainName name → t.under? "store" name = none := by
    intro name hn
    have hne : "store" ≠ child "store" name := by
      intro he
      have hp : parent (child "store" name) = "store" := parent_child hn.no_slash
      rw [← he] at hp
      exact absurd hp (by decide)
    rw [under?, put_getElem?, if_neg hne]
    exact Std.ExtTreeMap.getElem?_empty
  have ha : ∀ op ∈ ops, d.Accepts op := by
    simp only [ops, List.forall_mem_cons]
    exact ⟨⟨by decide, by decide⟩, ⟨by decide, by decide⟩, ⟨by decide, by decide⟩,
      ⟨by decide, by decide⟩, ⟨by decide, by decide⟩, ⟨by decide, by decide⟩, by simp⟩
  have hrefines := storage_refines hw ho
  have halike : Files.AlikeOn [d.join "a", d.temporary "a"] FileTree.files unlisted :=
    ⟨fun _ _ => rfl, fun _ _ => rfl, fun _ _ => rfl, fun _ _ => rfl⟩
  obtain ⟨hcongr, -, htemporary⟩ := (hrefines.2 (.load "a") "a" rfl).2 (by decide)
  exact ⟨hw, ho, hempty, ha, (hrefines.1 hempty ops ha).trans (by cbv), by decide,
    (hrefines.2 (.delete "../a") "../a" rfl).1 (by decide) FileTree.files, by decide, halike,
    hcongr FileTree.files unlisted halike, by decide, htemporary "a.t" (by decide)⟩

end Directory

end Concordance
