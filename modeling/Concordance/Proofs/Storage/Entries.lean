import Concordance.Storage.Directory
import Concordance.Storage.FileTree
import Mathlib

namespace Concordance

/-- A name as it stands between slashes, which neither stays nor goes up. -/
structure PlainName (name : String) : Prop where
  ne_empty : name ≠ ""
  ne_dot : name ≠ "."
  ne_dots : name ≠ ".."
  no_slash : '/' ∉ name.toList

namespace FileTree

section Places

variable {place name other : String}

theorem toList_child : (child place name).toList =
    if place = "" then name.toList else place.toList ++ '/' :: name.toList := by
  unfold child
  by_cases h : place = ""
  · simp [h]
  · simp [h]

theorem forall_reverse_ne_slash (h : '/' ∉ name.toList) :
    ∀ c ∈ name.toList.reverse, (c != '/') = true := by
  intro c hc
  simpa using fun he : c = '/' => h (he ▸ List.mem_reverse.1 hc)

theorem parent_child (h : '/' ∉ name.toList) : parent (child place name) = place := by
  have hw := forall_reverse_ne_slash h
  unfold parent
  rw [toList_child]
  split
  next he => rw [List.dropWhile_eq_nil_iff.2 hw, he]; rfl
  · rw [List.reverse_append, List.reverse_cons, List.append_assoc, List.dropWhile_append_of_pos hw]
    simp

theorem nameOf_child (place : String) (h : '/' ∉ name.toList) : nameOf (child place name) = name := by
  have hw := forall_reverse_ne_slash h
  unfold nameOf
  rw [toList_child]
  split
  · rw [List.takeWhile_eq_self_iff.2 hw]
    simp
  · rw [List.reverse_append, List.reverse_cons, List.append_assoc, List.takeWhile_append_of_pos hw]
    simp

theorem child_inj (h : PlainName name) (ho : PlainName other) :
    child place name = child place other ↔ name = other := by
  refine ⟨fun he => ?_, fun he => he ▸ rfl⟩
  rw [← nameOf_child place h.no_slash, he, nameOf_child place ho.no_slash]

theorem child_ne_empty (h : PlainName name) : child place name ≠ "" := by
  intro he
  have hn := nameOf_child place h.no_slash
  rw [he] at hn
  exact h.ne_empty hn.symm

end Places

def under? (t : FileTree) (place name : String) : Option FileNode := t.nodes[child place name]?

/-- A tree in which each place is that of a plain name below another. -/
def WellFormed (t : FileTree) : Prop :=
  ∀ place ∈ t.nodes, PlainName (nameOf place) ∧ child (parent place) (nameOf place) = place

theorem node?_child (t : FileTree) {place name : String} (h : PlainName name) :
    t.node? (child place name) = t.under? place name := by
  simp [node?, under?, child_ne_empty h]

theorem lookup_plain (t : FileTree) {place name : String} (h : PlainName name) :
    t.lookup place name =
      if nameLimit < name.utf8ByteSize then .error .refused
      else match t.under? place name with
        | some node => .ok (child place name, node)
        | none => .error .notFound := by
  cases hn : t.under? place name <;> simp [lookup, h.ne_dot, h.ne_dots, node?_child t h, hn]

theorem enter_eq_ok (t : FileTree) {place name found : String} :
    t.enter place name = .ok found ↔ t.lookup place name = .ok (found, .directory) := by
  unfold enter
  split <;> simp_all

def start (t : FileTree) (path : String) : String :=
  if Path.isAbsolute path then "" else t.current

theorem approach_eq (t : FileTree) (path : String) :
    t.approach path = checkPath path >>= fun _ =>
      (Path.names path).dropLast.foldlM t.enter (t.start path) >>= fun place =>
        .ok (place, (Path.names path).getLast?) := rfl

theorem find_eq_directory (t : FileTree) {path place : String} :
    t.find path = .ok (place, .directory) ↔
      checkPath path = .ok () ∧ (Path.names path).foldlM t.enter (t.start path) = .ok place := by
  unfold find
  rw [approach_eq]
  cases checkPath path with
  | error fault => simp [bind, Except.bind]
  | ok checked =>
    rcases List.eq_nil_or_concat (Path.names path) with hn | ⟨names, name, hn⟩
    · simp [hn, bind, Except.bind, pure, Except.pure]
    · simp only [hn, List.concat_eq_append, List.dropLast_concat, List.getLast?_concat,
        List.foldlM_append, bind, Except.bind, pure, Except.pure, List.foldlM_cons,
        List.foldlM_nil, true_and]
      cases names.foldlM t.enter (t.start path) with
      | error fault => simp
      | ok found =>
        simp only
        split
        · cases he : t.enter found name <;> simp
        · rw [← enter_eq_ok]
          cases t.enter found name <;> simp

end FileTree

namespace Directory

variable {d : Directory} {name : String}

def admits (d : Directory) (name : String) : Except FileFault Unit :=
  FileTree.checkPath (d.join name) >>= fun _ =>
    if FileTree.nameLimit < name.utf8ByteSize then .error .refused else .ok ()

theorem names_join (hd : d.path ≠ "") (hn : PlainName name) :
    Path.names (d.join name) = Path.names d.path ++ [name] := by
  have hs : ∀ c ∈ name.toList, (c == '/') = false := by
    intro c hc
    simpa using fun he : c = '/' => hn.no_slash (he ▸ hc)
  have hne : name.toList ≠ [] := by simpa using hn.ne_empty
  unfold join Path.names
  simp only [String.isEmpty_iff, hd, if_false]
  split
  next he =>
    obtain ⟨front, hf⟩ := List.isSuffixOf_iff_suffix.1 he
    rw [String.toList_append, ← hf, List.append_assoc, List.singleton_append,
      List.splitOnP_append_cons _ _ (by decide), List.splitOnP_append_cons _ _ (by decide),
      List.splitOnP_eq_singleton hs]
    simp [hne]
  · rw [String.toList_append, String.toList_append, List.append_assoc]
    rw [show "/".toList ++ name.toList = '/' :: name.toList from rfl,
      List.splitOnP_append_cons _ _ (by decide), List.splitOnP_eq_singleton hs]
    simp [hne]

theorem isAbsolute_join (hd : d.path ≠ "") : Path.isAbsolute (d.join name) = Path.isAbsolute d.path := by
  have hne : d.path.toList ≠ [] := by simpa using hd
  unfold join Path.isAbsolute
  simp only [String.isEmpty_iff, hd, if_false]
  split <;> simp [List.head?_append, List.head?_eq_some_head hne]

theorem endsInSlash_join (hd : d.path ≠ "") (hn : PlainName name) :
    Path.endsInSlash (d.join name) = false := by
  have hne : name.toList ≠ [] := by simpa using hn.ne_empty
  have hl : name.toList.getLast hne ≠ '/' := fun he => hn.no_slash (he ▸ List.getLast_mem hne)
  unfold join Path.endsInSlash
  simp only [String.isEmpty_iff, hd, if_false]
  split <;> simp [List.getLast?_append, List.getLast?_cons, List.getLast?_eq_some_getLast hne, hl]

end Directory

namespace FileTree

section Open

variable {t : FileTree} {d : Directory} {place name : String}
  (ho : t.find d.path = .ok (place, .directory))
include ho

theorem path_ne_empty : d.path ≠ "" := by
  intro he
  have hc := (t.find_eq_directory.1 ho).1
  rw [he] at hc
  cases hc

theorem approach_join (hn : PlainName name) :
    t.approach (d.join name) = checkPath (d.join name) >>= fun _ => .ok (place, some name) := by
  have hd := path_ne_empty ho
  have hs : t.start (d.join name) = t.start d.path := by
    simp only [start, Directory.isAbsolute_join hd]
  rw [approach_eq, Directory.names_join hd hn, hs, List.dropLast_concat, List.getLast?_concat,
    (t.find_eq_directory.1 ho).2]
  rfl

theorem find_join (hn : PlainName name) :
    t.find (d.join name) = d.admits name >>= fun _ =>
      match t.under? place name with
      | some node => .ok (child place name, node)
      | none => .error .notFound := by
  unfold find
  rw [approach_join ho hn, Directory.admits]
  cases checkPath (d.join name) with
  | error fault => rfl
  | ok checked =>
    simp only [bind, Except.bind, Directory.endsInSlash_join (path_ne_empty ho) hn, lookup_plain t hn]
    by_cases hl : nameLimit < name.utf8ByteSize <;> simp [hl]

theorem findFile_join (hn : PlainName name) :
    t.findFile (d.join name) = d.admits name >>= fun _ =>
      match t.under? place name with
      | some (.file bytes) => .ok (child place name, bytes)
      | some .directory => .error .directory
      | none => .error .notFound := by
  unfold findFile
  rw [find_join ho hn]
  cases d.admits name with
  | error fault => rfl
  | ok admitted =>
    cases t.under? place name with
    | none => rfl
    | some node => cases node <;> rfl

theorem fileSlot_join (hn : PlainName name) :
    t.fileSlot (d.join name) = d.admits name >>= fun _ =>
      match t.under? place name with
      | some .directory => .error .directory
      | _ => .ok (child place name) := by
  unfold fileSlot slot
  rw [approach_join ho hn, Directory.admits]
  cases checkPath (d.join name) with
  | error fault => rfl
  | ok checked =>
    simp only [bind, Except.bind, Directory.endsInSlash_join (path_ne_empty ho) hn, lookup_plain t hn]
    by_cases hl : nameLimit < name.utf8ByteSize
    · simp [hl, throw, throwThe, MonadExceptOf.throw]
    · cases t.under? place name with
      | none => simp [hl, pure, Except.pure]
      | some node => cases node <;> simp [hl, pure, Except.pure, throw, throwThe, MonadExceptOf.throw]

end Open

end FileTree

end Concordance
