import Mathlib.Order.Basic
import Mathlib.Data.List.Basic
/-!
# Inode names

`internal/fs/inode/name.go`: an inode is named by its bucket and its GCS
object name. A directory's object name ends in a slash, or is empty for
the bucket's root, and a child's object name is its parent's followed by
the name the kernel knows it by. So below the root the two differ
(`gcsObjectName_newFileName_ne`): a call that hands the kernel's name to
code that wants the object's name names another object.

`IsDirectChildOf`, which picks the local files a directory lists, strips
the parent's object name and looks for a slash in what is left;
`ParentName` cuts the name at its last slash. For a directory parent the
two agree on every name (`isDirectChildOf_iff_parentName`), through
`exists_child_iff_parentObjectName` on the characters. The guard meant to
reject a parent that is not a directory also asks for a bucket root, so a
file is the parent of every name it is a prefix of, up to one more
component (`file_parent_has_direct_child`); `ParentName` only returns
directories (`isDir_of_parentName`).
-/

namespace GcsFuse

namespace Fs

/-- `inode.Name`. -/
structure Name where
  bucketName : String
  objectName : String
  deriving DecidableEq, Repr

namespace Name

/-- `NewRootName`. -/
def newRootName (bucketName : String) : Name := ⟨bucketName, ""⟩

/-- `IsBucketRoot`. -/
def isBucketRoot (name : Name) : Bool := name.objectName == ""

/-- `IsDir`: the root, or an object name that ends in a slash. -/
def isDir (name : Name) : Bool := name.isBucketRoot || name.objectName.toList.getLast? == some '/'

/-- `IsFile`. -/
def isFile (name : Name) : Bool := !name.isDir

/-- `NewFileName`; `none` is its panic, for a file parent or an empty
name. -/
def newFileName (parentName : Name) (fileName : String) : Option Name :=
  if parentName.isFile ∨ fileName = "" then none
  else some ⟨parentName.bucketName, parentName.objectName ++ fileName⟩

/-- `GcsObjectName`. -/
def gcsObjectName (name : Name) : String := name.objectName

/-- `LocalName`: the bucket's name, a slash and the object's name, or the
object's name alone in a mount of one bucket. -/
def localName (name : Name) : String :=
  if name.bucketName = "" then name.objectName else name.bucketName ++ "/" ++ name.objectName

/-- `strings.TrimSuffix` of one slash, on the characters of a name. -/
def trimSlash (l : List Char) : List Char :=
  if l.getLast? = some '/' then l.dropLast else l

/-- `IsDirectChildOf`: the name lies one level below the parent's, a file
or a directory. -/
def isDirectChildOf (name parent : Name) : Bool :=
  if !parent.isDir && name.isBucketRoot then false
  else if name.bucketName != parent.bucketName then false
  else if !parent.objectName.toList.isPrefixOf name.objectName.toList then false
  else
    let diff := name.objectName.toList.drop parent.objectName.toList.length
    if diff = [] then false else !(trimSlash diff).contains '/'

/-- `strings.LastIndex(s, string(c))` on the characters of a name: the
index of the last `c`, `none` for `-1`. -/
def lastIndex (c : Char) : List Char → Option ℕ
  | [] => none
  | x :: xs =>
    match lastIndex c xs with
    | some i => some (i + 1)
    | none => if x = c then some 0 else none

/-- The object name `ParentName` keeps: a trailing slash trimmed
(`strings.TrimSuffix`), then everything up to the last slash, the slash
included, or nothing when there is no slash left. -/
def parentObjectName (objectName : List Char) : List Char :=
  match lastIndex '/' (trimSlash objectName) with
  | none => []
  | some lastSlash => (trimSlash objectName).take (lastSlash + 1)

/-- `ParentName`; `none` is its error for a bucket root. -/
def parentName (name : Name) : Option Name :=
  if name.isBucketRoot then none
  else some ⟨name.bucketName, String.ofList (parentObjectName name.objectName.toList)⟩

/-- **A child's object name is its parent's followed by its own.** -/
theorem gcsObjectName_newFileName {parentName n : Name} {fileName : String}
    (h : parentName.newFileName fileName = some n) :
    n.gcsObjectName = parentName.objectName ++ fileName := by
  unfold newFileName at h
  split at h
  · cases h
  · cases h
    rfl

/-- **Below the root, a child's object name is not its own name.** -/
theorem gcsObjectName_newFileName_ne {parentName n : Name} {fileName : String}
    (h : parentName.newFileName fileName = some n) (hroot : parentName.isBucketRoot = false) :
    n.gcsObjectName ≠ fileName := by
  rw [gcsObjectName_newFileName h]
  intro heq
  have hlen := congrArg String.length heq
  rw [String.length_append] at hlen
  have hempty : parentName.objectName = "" := String.length_eq_zero_iff.1 (by omega)
  simp [isBucketRoot, hempty] at hroot


section ParentName

/-! ## The last slash -/

variable {c : Char}

theorem lastIndex_eq_none_iff {l : List Char} : lastIndex c l = none ↔ c ∉ l := by
  induction l with
  | nil => simp [lastIndex]
  | cons x xs ih =>
    unfold lastIndex
    cases h : lastIndex c xs with
    | some i =>
      -- a `c` in the tail
      have hc : c ∈ xs := Decidable.byContradiction fun hc => by simp [ih.2 hc] at h
      simp only [reduceCtorEq, false_iff, not_not]
      exact List.mem_cons_of_mem x hc
    | none =>
      have hc := ih.1 h
      by_cases hx : x = c
      · simp [hx]
      · simp [hx, hc, Ne.symm hx]

theorem lastIndex_append_cons {v : List Char} (hv : c ∉ v) : ∀ u : List Char,
    lastIndex c (u ++ c :: v) = some u.length
  | [] => by simp [lastIndex, lastIndex_eq_none_iff.2 hv]
  | x :: u => by
    rw [List.cons_append, lastIndex, lastIndex_append_cons hv u, List.length_cons]

theorem exists_of_lastIndex : ∀ {l : List Char} {i : ℕ}, lastIndex c l = some i →
    ∃ u v, l = u ++ c :: v ∧ c ∉ v ∧ u.length = i
  | [], _, h => by cases h
  | x :: xs, i, h => by
    unfold lastIndex at h
    cases hxs : lastIndex c xs with
    | some j =>
      rw [hxs] at h
      obtain ⟨u, v, rfl, hv, rfl⟩ := exists_of_lastIndex hxs
      obtain rfl := Option.some.inj h
      exact ⟨x :: u, v, rfl, hv, rfl⟩
    | none =>
      rw [hxs] at h
      split_ifs at h with hx
      obtain rfl := Option.some.inj h
      exact ⟨[], xs, by rw [hx]; rfl, lastIndex_eq_none_iff.1 hxs, rfl⟩

/-! ## Trimming one slash -/

/-- Cutting a name after a character keeps the character. -/
theorem take_length_succ_append_cons (u : List Char) (x : Char) (v : List Char) :
    (u ++ x :: v).take (u.length + 1) = u ++ [x] := by
  rw [List.take_append, List.take_of_length_le (by omega), Nat.add_sub_cancel_left]
  rfl

theorem trimSlash_of_getLast? {l : List Char} (h : l.getLast? ≠ some '/') : trimSlash l = l := by
  rw [trimSlash, if_neg h]

theorem trimSlash_concat_slash (l : List Char) : trimSlash (l ++ ['/']) = l := by
  rw [trimSlash, if_pos (List.getLast?_concat ..), List.dropLast_concat]

theorem trimSlash_append {d : List Char} (hd : d ≠ []) (q : List Char) :
    trimSlash (q ++ d) = q ++ trimSlash d := by
  unfold trimSlash
  rw [List.getLast?_append_of_ne_nil q hd]
  split_ifs
  · exact List.dropLast_append_of_ne_nil hd
  · rfl

/-- **The parent's object name of a child of a directory.** Below the
object name `q` of a directory (empty, or ending in a slash), the names
one level down, a trailing slash allowed, are exactly those whose
`ParentName` keeps `q`. -/
theorem exists_child_iff_parentObjectName {q o : List Char} (hq : q = [] ∨ q.getLast? = some '/')
    (ho : o ≠ []) :
    (∃ d, o = q ++ d ∧ d ≠ [] ∧ '/' ∉ trimSlash d) ↔ parentObjectName o = q := by
  constructor
  · rintro ⟨d, rfl, hd, hslash⟩
    unfold parentObjectName
    rw [trimSlash_append hd]
    rcases hq with rfl | hq
    · rw [List.nil_append, lastIndex_eq_none_iff.2 hslash]
    · -- the last slash of the parent's name is the last one
      obtain ⟨q', rfl⟩ := List.getLast?_eq_some_iff.1 hq
      rw [List.append_assoc, List.singleton_append, lastIndex_append_cons hslash]
      exact take_length_succ_append_cons q' '/' _
  · intro h
    unfold parentObjectName at h
    cases hl : lastIndex '/' (trimSlash o) with
    | none =>
      rw [hl] at h
      subst h
      exact ⟨o, rfl, ho, lastIndex_eq_none_iff.1 hl⟩
    | some i =>
      rw [hl] at h
      obtain ⟨u, v, ht, hv, rfl⟩ := exists_of_lastIndex hl
      have hq : q = u ++ ['/'] := by
        rw [← h, ht]
        exact take_length_succ_append_cons u '/' v
      subst hq
      by_cases hlast : o.getLast? = some '/'
      · -- a trailing slash was trimmed: the child's name is `v/`
        obtain ⟨o', rfl⟩ := List.getLast?_eq_some_iff.1 hlast
        rw [trimSlash_concat_slash] at ht
        refine ⟨v ++ ['/'], by rw [ht]; simp, by simp, ?_⟩
        rw [trimSlash_concat_slash]
        exact hv
      · -- nothing was trimmed: the child's name `v` ends the name
        rw [trimSlash_of_getLast? hlast] at ht
        have hv0 : v ≠ [] := by
          rintro rfl
          rw [ht] at hlast
          simp at hlast
        have hvlast : v.getLast? ≠ some '/' := by
          rwa [ht, ← List.singleton_append, ← List.append_assoc, List.getLast?_append_of_ne_nil _ hv0] at hlast
        refine ⟨v, by rw [ht]; simp, hv0, ?_⟩
        rw [trimSlash_of_getLast? hvlast]
        exact hv

/-! ## `IsDirectChildOf` against `ParentName` -/

variable {n p : Name}

/-- `IsDirectChildOf` with a directory for parent: the same bucket, and
the parent's object name followed by one more name, a trailing slash
allowed. -/
theorem isDirectChildOf_iff (hp : p.isDir = true) :
    n.isDirectChildOf p = true ↔ n.bucketName = p.bucketName ∧
      ∃ d, n.objectName.toList = p.objectName.toList ++ d ∧ d ≠ [] ∧ '/' ∉ trimSlash d := by
  simp only [isDirectChildOf, hp, Bool.not_true, Bool.false_and, Bool.false_eq_true, if_false]
  constructor
  · intro h
    split_ifs at h with hb hpre hd
    have hprefix : p.objectName.toList <+: n.objectName.toList :=
      List.isPrefixOf_iff_prefix.1 (by simpa using hpre)
    exact ⟨by simpa using hb, _, (List.prefix_iff_eq_append.1 hprefix).symm, hd, by simpa using h⟩
  · rintro ⟨hb, d, ho, hd, hslash⟩
    have hpre : p.objectName.toList.isPrefixOf n.objectName.toList = true :=
      List.isPrefixOf_iff_prefix.2 ⟨d, ho.symm⟩
    have hdrop : n.objectName.toList.drop p.objectName.toList.length = d := by
      rw [ho, List.drop_left]
    rw [if_neg (by simp [hb]), if_neg (by simp [hpre]), hdrop, if_neg hd]
    simpa using hslash

theorem isBucketRoot_eq_false_iff : n.isBucketRoot = false ↔ n.objectName.toList ≠ [] := by
  simp [isBucketRoot, String.toList_eq_nil_iff]

theorem isDir_iff : p.isDir = true ↔ p.objectName.toList = [] ∨ p.objectName.toList.getLast? = some '/' := by
  simp [isDir, isBucketRoot, String.toList_eq_nil_iff]

theorem parentName_eq_some_iff : n.parentName = some p ↔
    n.isBucketRoot = false ∧ p.bucketName = n.bucketName ∧
      p.objectName.toList = parentObjectName n.objectName.toList := by
  unfold parentName
  split_ifs with hroot
  · simp [hroot]
  · rw [Option.some.injEq]
    obtain ⟨b, o⟩ := p
    simp only [Name.mk.injEq, String.ext_iff, String.toList_ofList, Bool.not_eq_true] at hroot ⊢
    exact ⟨fun ⟨hb, ho⟩ => ⟨hroot, hb.symm, ho.symm⟩, fun ⟨_, hb, ho⟩ => ⟨hb.symm, ho.symm⟩⟩

/-- What `ParentName` returns is a directory. -/
theorem isDir_of_parentName {q : Name} (h : n.parentName = some q) : q.isDir = true := by
  rw [parentName_eq_some_iff] at h
  rw [isDir_iff, h.2.2]
  unfold parentObjectName
  cases hl : lastIndex '/' (trimSlash n.objectName.toList) with
  | none => exact .inl rfl
  | some i =>
    obtain ⟨u, v, ht, -, rfl⟩ := exists_of_lastIndex hl
    right
    show (List.take (u.length + 1) (trimSlash n.objectName.toList)).getLast? = some '/'
    rw [ht, take_length_succ_append_cons]
    exact List.getLast?_concat ..

/-- **For a directory parent, `IsDirectChildOf` is `ParentName`**: a name
is a direct child of a directory exactly when it is not a bucket's root
and `ParentName` returns the directory. -/
theorem isDirectChildOf_iff_parentName (hp : p.isDir = true) :
    n.isDirectChildOf p = true ↔ n.isBucketRoot = false ∧ n.parentName = some p := by
  have hq := isDir_iff.1 hp
  rw [isDirectChildOf_iff hp, parentName_eq_some_iff]
  constructor
  · rintro ⟨hb, d, ho, hd, hslash⟩
    -- the child's object name is the parent's and a nonempty name
    have hroot : n.isBucketRoot = false := by
      rw [isBucketRoot_eq_false_iff, ho]
      exact List.append_ne_nil_of_right_ne_nil _ hd
    have hparent := (exists_child_iff_parentObjectName hq (isBucketRoot_eq_false_iff.1 hroot)).1
      ⟨d, ho, hd, hslash⟩
    exact ⟨hroot, hroot, hb.symm, hparent.symm⟩
  · rintro ⟨hroot, -, hb, ho⟩
    exact ⟨hb.symm, (exists_child_iff_parentObjectName hq (isBucketRoot_eq_false_iff.1 hroot)).2 ho.symm⟩

/-- "a/b/" is a direct child of "a/", whose `ParentName` it is. -/
theorem subdirectory_is_direct_child :
    (⟨"", "a/b/"⟩ : Name).isDirectChildOf ⟨"", "a/"⟩ = true ↔
      (⟨"", "a/b/"⟩ : Name).isBucketRoot = false ∧ (⟨"", "a/b/"⟩ : Name).parentName = some ⟨"", "a/"⟩ :=
  isDirectChildOf_iff_parentName (by decide)

/-- In one bucket, "ab" is a direct child of the file "a": the guard meant
to reject a parent that is not a directory also asks for a bucket root,
and `ParentName` of "ab" is the bucket's root, a directory. -/
theorem file_parent_has_direct_child :
    (⟨"", "ab"⟩ : Name).isDirectChildOf ⟨"", "a"⟩ = true ∧ (⟨"", "a"⟩ : Name).isDir = false ∧
      (⟨"", "ab"⟩ : Name).isBucketRoot = false ∧ (⟨"", "ab"⟩ : Name).parentName = some ⟨"", ""⟩ := by
  decide

end ParentName

end Name

/-- `path.Base`: the last element of a slash-separated path, its trailing
slashes dropped; "." for the empty path and "/" for slashes alone. -/
def pathBase (path : String) : String :=
  if path = "" then "."
  else
    let last := ((path.toList.reverse.dropWhile (· = '/')).takeWhile (· ≠ '/')).reverse
    if last = [] then "/" else String.ofList last

/-- `strings.TrimSuffix`. -/
def trimSuffix (s suffix : String) : String :=
  if suffix.toList.isSuffixOf s.toList then String.ofList (s.toList.take (s.length - suffix.length))
  else s

end Fs

end GcsFuse
