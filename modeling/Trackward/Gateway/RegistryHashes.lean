import Trackward.Gateway.Registry
import Trackward.Lib.Sha256

/-!
# What the hash of a registry directory identifies

The text of a file ends with a newline, its digest and a newline; but a path
may have all of these in it.  So the texts of several files are the text of one
file with a longer path, and a directory with several files shares its hash
with a directory with one.  A path that is not UTF-8 shares its text with
another path.

The hash identifies a directory exactly if it has no file, or one file whose
path cannot be read in another way.  Paths without newlines, and with names
that are UTF-8 without replacement characters, are read in one way only; among
directories with such paths the hash identifies all files.
-/

namespace Trackward.Gateway.RegistryHashes

open Trackward.Gateway.Registry
open Trackward.Lib
open Trackward.Lib.Collisions
open Trackward.Lib.LossyUtf8
open Trackward.Lib.Octets
open Trackward.Lib.PrefixCodes (Stops run_append_inj separated)
open Trackward.Lib.TextOrders

variable {sha256 : Bytes → Digest}

/-! ## Two files in one path -/

/-- A name that contains the digest of a file between two others. -/
def glue (front : Name) (digest : Digest) (back : Name) : Name where
  bytes := front.bytes ++ (mark digest ++ back.bytes)
  nonempty := by simp [mark]
  noSlash := by
    rw [List.mem_append, List.mem_append]
    rintro (before | middle | after)
    · exact front.noSlash before
    · rcases mem_mark middle with newline | digit
      · exact absurd newline (by decide)
      · exact absurd digit (by decide)
    · exact back.noSlash after
  noNul := by
    rw [List.mem_append, List.mem_append]
    rintro (before | middle | after)
    · exact front.noNul before
    · rcases mem_mark middle with newline | digit
      · exact absurd newline (by decide)
      · exact absurd digit (by decide)
    · exact back.noNul after
  notDot := by
    intro same
    have newline : (0x0A : UInt8) ∈ [(0x2E : UInt8)] := by
      rw [← same]
      simp [mark]
    exact absurd newline (by decide)
  notDotDot := by
    intro same
    have newline : (0x0A : UInt8) ∈ [(0x2E : UInt8), 0x2E] := by
      rw [← same]
      simp [mark]
    exact absurd newline (by decide)

/-- A path that contains another one, a digest, and a third one. -/
def fuse : Path → Digest → Path → Path
  | [], _, back => back
  | [name], digest, [] => [glue name digest name]
  | [name], digest, first :: back => glue name digest first :: back
  | name :: next :: front, digest, back =>
      name :: fuse (next :: front) digest back

theorem fuse_ne_nil {front back : Path} (digest : Digest)
    (nonempty : back ≠ []) : fuse front digest back ≠ [] := by
  unfold fuse
  split
  · exact nonempty
  · exact List.cons_ne_nil _ _
  · exact List.cons_ne_nil _ _
  · exact List.cons_ne_nil _ _

theorem separated_append (word before : Bytes) (words : List Bytes) :
    separated 0x2F ((before ++ word) :: words) =
      before ++ separated 0x2F (word :: words) := by
  cases words with
  | nil => rfl
  | cons next words => simp [separated]

theorem pathBytes_fuse {front back : Path} (digest : Digest)
    (nonempty : front ≠ []) (nonempty' : back ≠ []) :
    pathBytes (fuse front digest back) =
      pathBytes front ++ (mark digest ++ pathBytes back) := by
  induction front with
  | nil => exact absurd rfl nonempty
  | cons name front induction =>
      cases front with
      | nil =>
          cases back with
          | nil => exact absurd rfl nonempty'
          | cons first back =>
              rw [fuse, pathBytes, List.map_cons]
              change separated 0x2F
                ((name.bytes ++ (mark digest ++ first.bytes)) :: _) = _
              rw [separated_append, separated_append]
              rfl
      | cons next front =>
          have later := induction (List.cons_ne_nil next front)
          rw [fuse]
          cases fused : fuse (next :: front) digest back with
          | nil => exact absurd fused (fuse_ne_nil digest nonempty')
          | cons first path =>
              rw [fused] at later
              rw [pathBytes_cons, later, pathBytes_cons, List.append_assoc,
                List.cons_append]

/-- A longer name comes later. -/
theorem lt_glue (name : Name) (digest : Digest) (back : Name) :
    name < glue name digest back := by
  rw [Name.lt_iff, Name.units, Name.units, glue, List.map_append]
  have longer := @append_lt_append _ _ (name.bytes.map UInt8.toNat) []
    ((mark digest ++ back.bytes).map UInt8.toNat) List.Lex.nil
  rwa [List.append_nil] at longer

/-- What comes before a path comes before it with others fused to it. -/
theorem before_fuse {path front : Path} (before : Before path front)
    (digest : Digest) (back : Path) : Before path (fuse front digest back) := by
  rcases before with ⟨one, other, differ, less⟩
  induction front generalizing path with
  | nil => cases path <;> cases differ
  | cons name front induction =>
      cases path with
      | nil => cases differ
      | cons first path =>
          rw [firstDifference] at differ
          cases front with
          | nil =>
              split at differ
              · cases path <;> cases differ
              · cases differ
                cases back with
                | nil =>
                    have later := less.trans (lt_glue _ digest other)
                    refine ⟨one, glue other digest other, ?_, later⟩
                    rw [fuse, firstDifference, if_neg later.ne]
                | cons next back =>
                    have later := less.trans (lt_glue _ digest next)
                    refine ⟨one, glue other digest next, ?_, later⟩
                    rw [fuse, firstDifference, if_neg later.ne]
          | cons next front =>
              rw [fuse]
              split at differ
              · rename_i same
                subst same
                rcases induction differ with ⟨one', other', differ', less'⟩
                refine ⟨one', other', ?_, less'⟩
                rw [firstDifference, if_pos rfl]
                exact differ'
              · rename_i different
                cases differ
                refine ⟨one, other, ?_, less⟩
                rw [firstDifference, if_neg different]

/-! ## Many files in one path -/

/-- The file whose text is that of a list of files. -/
def fuseAll (sha256 : Bytes → Digest) :
    Path × Bytes → List (Path × Bytes) → Path × Bytes
  | file, [] => file
  | file, next :: files =>
      (fuse file.1 (sha256 file.2) (fuseAll sha256 next files).1,
        (fuseAll sha256 next files).2)

theorem fuseAll_ne_nil {file : Path × Bytes} {files : List (Path × Bytes)}
    (nonempty : ∀ other ∈ file :: files, other.1 ≠ []) :
    (fuseAll sha256 file files).1 ≠ [] := by
  induction files generalizing file with
  | nil => exact nonempty file List.mem_cons_self
  | cons next files induction =>
      exact
        fuse_ne_nil _
          (induction fun other member =>
            nonempty other (List.mem_cons_of_mem _ member))

/-- The bytes of the fused file are those of the last one. -/
theorem exists_mem_fuseAll (file : Path × Bytes)
    (files : List (Path × Bytes)) :
    ∃ last ∈ file :: files, (fuseAll sha256 file files).2 = last.2 := by
  induction files generalizing file with
  | nil => exact ⟨file, List.mem_cons_self, rfl⟩
  | cons next files induction =>
      rcases induction next with ⟨last, member, same⟩
      exact ⟨last, List.mem_cons_of_mem _ member, same⟩

/-- The texts of files are the text of one file. -/
theorem fileText_fuseAll {file : Path × Bytes} {files : List (Path × Bytes)}
    (nonempty : ∀ other ∈ file :: files, other.1 ≠ []) :
    fileText sha256 (fuseAll sha256 file files) =
      (file :: files).flatMap (fileText sha256) := by
  induction files generalizing file with
  | nil => simp [fuseAll]
  | cons next files induction =>
      have others : ∀ other ∈ next :: files, other.1 ≠ [] :=
        fun other member => nonempty other (List.mem_cons_of_mem _ member)
      have middle : mark (sha256 file.2) ≠ [] := List.cons_ne_nil _ _
      rw [List.flatMap_cons, ← induction others, fuseAll, fileText,
        pathBytes_fuse _ (nonempty file List.mem_cons_self)
          (fuseAll_ne_nil others),
        lossy_around_ascii (fun _ => ascii_mark) middle]
      simp [fileText]

/-- The first of sorted files comes before the others fused. -/
theorem before_fuseAll {path : Path} {file : Path × Bytes}
    {files : List (Path × Bytes)} (before : Before path file.1) :
    Before path (fuseAll sha256 file files).1 := by
  cases files with
  | nil => exact before
  | cons next files => exact before_fuse before _ _

/-! ## Directories with one and two files -/

/-- A file listed, in directories of its own, before other entries. -/
def listed : Path → Bytes → Listing → Listing
  | [], _, rest => rest
  | [name], bytes, rest => .file name bytes rest
  | name :: next :: path, bytes, rest =>
      .directory name (listed (next :: path) bytes .done) rest

theorem collectFiles_listed (dir : Path) {path : Path} (bytes : Bytes)
    (rest : Listing) (nonempty : path ≠ []) :
    collectFiles dir (listed path bytes rest) =
      (dir ++ path, bytes) :: collectFiles dir rest := by
  induction path generalizing dir rest with
  | nil => exact absurd rfl nonempty
  | cons name path induction =>
      cases path with
      | nil => rfl
      | cons next path =>
          rw [listed, collectFiles,
            induction _ _ (List.cons_ne_nil next path), collectFiles,
            List.append_assoc]
          rfl

theorem names_listed (name : Name) (path : Path) (bytes : Bytes)
    (rest : Listing) :
    (listed (name :: path) bytes rest).names = name :: rest.names := by
  cases path <;> rfl

theorem distinct_listed {name : Name} {path : Path} (bytes : Bytes)
    {rest : Listing} (absent : name ∉ rest.names) (distinct : rest.Distinct) :
    (listed (name :: path) bytes rest).Distinct := by
  induction path generalizing name rest with
  | nil => exact ⟨absent, distinct⟩
  | cons next path induction =>
      exact ⟨absent, induction (List.not_mem_nil) trivial, distinct⟩

/-- Two files, in the directories they share and in others of their own. -/
def listedPair : Path → Bytes → Path → Bytes → Listing
  | name :: path, bytes, name' :: path', bytes' =>
      if name = name' then
        .directory name (listedPair path bytes path' bytes') .done
      else
        listed (name :: path) bytes (listed (name' :: path') bytes' .done)
  | _, _, _, _ => .done

theorem collectFiles_listedPair (dir : Path) {path path' : Path}
    (bytes bytes' : Bytes) (apart : Apart path path') :
    collectFiles dir (listedPair path bytes path' bytes') =
      [(dir ++ path, bytes), (dir ++ path', bytes')] := by
  induction path generalizing dir path' with
  | nil => exact absurd rfl apart
  | cons name path induction =>
      cases path' with
      | nil => exact absurd rfl apart
      | cons name' path' =>
          rw [listedPair]
          split
          · rename_i same
            subst same
            have inner : Apart path path' := by
              rwa [Apart, firstDifference, if_pos rfl] at apart
            rw [collectFiles, induction _ inner]
            simp [collectFiles]
          · rw [collectFiles_listed _ _ _ (List.cons_ne_nil _ _),
              collectFiles_listed _ _ _ (List.cons_ne_nil _ _)]
            rfl

theorem distinct_listedPair {path path' : Path} (bytes bytes' : Bytes) :
    (listedPair path bytes path' bytes').Distinct := by
  induction path generalizing path' with
  | nil => trivial
  | cons name path induction =>
      cases path' with
      | nil => trivial
      | cons name' path' =>
          rw [listedPair]
          split
          · exact ⟨List.not_mem_nil, induction, trivial⟩
          · rename_i different
            refine distinct_listed bytes ?_
              (distinct_listed bytes' List.not_mem_nil trivial)
            rw [names_listed]
            simpa [Listing.names] using different

/-- There is a directory with any one file. -/
theorem exists_single {path : Path} (nonempty : path ≠ []) (bytes : Bytes) :
    ∃ directory : Directory, directory.files = [(path, bytes)] := by
  cases path with
  | nil => exact absurd rfl nonempty
  | cons name path =>
      refine
        ⟨⟨listed (name :: path) bytes .done,
          distinct_listed bytes List.not_mem_nil trivial⟩, ?_⟩
      exact collectFiles_listed [] bytes .done nonempty

/-- There is a directory with any two files that are apart. -/
theorem exists_pair {path path' : Path} (bytes bytes' : Bytes)
    (apart : Apart path path') :
    ∃ directory : Directory,
      directory.files = [(path, bytes), (path', bytes')] :=
  ⟨⟨listedPair path bytes path' bytes', distinct_listedPair bytes bytes'⟩,
    collectFiles_listedPair [] bytes bytes' apart⟩

theorem sorted_of_files {directory : Directory}
    {files : List (Path × Bytes)} (same : directory.files = files)
    (ordered : files.Pairwise fun file file' => file.1 ≤ file'.1) :
    directory.sorted = files := by
  rw [Directory.sorted, same]
  exact
    List.mergeSort_of_pairwise
      (ordered.imp fun before => decide_eq_true before)

theorem apart_of_before {path path' : Path} (before : Before path path') :
    Apart path path' := by
  rcases before with ⟨name, name', differ, _⟩
  rw [Apart, differ]
  exact Option.some_ne_none _

theorem le_of_before {path path' : Path} (before : Before path path') :
    path ≤ path' := by
  rcases before with ⟨name, name', differ, less⟩
  exact le_of_lt (lt_of_firstDifference differ less)

/-! ## What the hash identifies -/

/-- Only directories with the same files have the hash of the directory. -/
def Identified (sha256 : Bytes → Digest) (directory : Directory) : Prop :=
  ∀ other : Directory,
    CollisionFree sha256
        (hashedStrings sha256 directory ++ hashedStrings sha256 other) →
      hashDirectory sha256 other = hashDirectory sha256 directory →
        SameFiles other directory

/--
A path that can be read in one way: its names are UTF-8 without replacement
characters, and it has no digest of any bytes between two paths in order.
-/
def ReadOnce (sha256 : Bytes → Digest) (path : Path) : Prop :=
  (∀ name ∈ path, Plain name.bytes) ∧
    ∀ front back bytes, Before front back →
      pathBytes path ≠
        pathBytes front ++ (mark (sha256 bytes) ++ pathBytes back)

theorem outerText_mem (directory : Directory) :
    outerText sha256 directory ∈ hashedStrings sha256 directory :=
  List.mem_append_right _ (List.mem_singleton_self _)

theorem bytes_mem {directory : Directory} {file : Path × Bytes}
    (member : file ∈ directory.files) :
    file.2 ∈ hashedStrings sha256 directory :=
  List.mem_append_left _ (List.mem_map_of_mem member)

/-- Without collisions, directories with one hash have one text. -/
theorem outerText_eq {directory other : Directory}
    (free :
      CollisionFree sha256
        (hashedStrings sha256 directory ++ hashedStrings sha256 other))
    (same : hashDirectory sha256 other = hashDirectory sha256 directory) :
    outerText sha256 other = outerText sha256 directory := by
  refine
    free _ (List.mem_append_right _ (outerText_mem other)) _
      (List.mem_append_left _ (outerText_mem directory)) ?_
  exact Block.ext (Hexadecimal.encode_injective same)

/-- Names that show plain names are these. -/
theorem names_eq_of_lossy {path path' : Path}
    (plain : ∀ name ∈ path, Plain name.bytes)
    (same :
      (path'.map fun name => lossy name.bytes) =
        path.map fun name => lossy name.bytes) : path' = path := by
  induction path generalizing path' with
  | nil => exact List.map_eq_nil_iff.mp same
  | cons name path induction =>
      cases path' with
      | nil => cases same
      | cons name' path' =>
          rw [List.map_cons, List.map_cons, List.cons.injEq] at same
          have first :=
            plain_iff.mp (plain name List.mem_cons_self) name'.bytes same.1
          have others :=
            induction
              (fun other member =>
                plain other (List.mem_cons_of_mem _ member))
              same.2
          rw [Name.ext first, others]

/-- A path of plain names is the only one that shows them. -/
theorem path_eq_of_lossy {path path' : Path} (nonempty : path ≠ [])
    (nonempty' : path' ≠ []) (plain : ∀ name ∈ path, Plain name.bytes)
    (same : lossy (pathBytes path') = lossy (pathBytes path)) :
    path' = path := by
  have free : ∀ path : Path,
      ∀ word ∈ path.map fun name => lossy name.bytes, 0x2F ∉ word := by
    intro path word member slash
    rcases List.mem_map.mp member with ⟨name, _, rfl⟩
    rcases mem_of_mem_lossy slash with old | new
    · exact name.noSlash old
    · exact absurd new (by decide)
  rw [lossy_pathBytes, lossy_pathBytes] at same
  exact
    names_eq_of_lossy plain
      (words_eq_of_separated (by simpa using nonempty')
        (by simpa using nonempty) (free path') (free path) same)

/-! ## Directories that share their hash -/

/-- A directory with the same text and no bytes that collide has the hash. -/
theorem not_identified_of_text {directory : Directory} {inputs : List Bytes}
    (free : CollisionFree sha256 inputs)
    (included :
      ∀ input ∈ hashedStrings sha256 directory, input ∈ inputs)
    (other : Directory)
    (text : outerText sha256 other = outerText sha256 directory)
    (known : ∀ file ∈ other.files, file.2 ∈ inputs)
    (different : ¬ SameFiles other directory) :
    ¬ Identified sha256 directory := by
  intro identified
  refine different (identified other (free.subset ?_) ?_)
  · intro input member
    rcases List.mem_append.mp member with here | there
    · exact included input here
    · rcases List.mem_append.mp there with bytes | last
      · rcases List.mem_map.mp bytes with ⟨file, inside, rfl⟩
        exact known file inside
      · rw [List.mem_singleton.mp last, text]
        exact included _ (outerText_mem directory)
  · rw [hashDirectory, hashDirectory, text]

/-- The text of a directory with one file. -/
theorem outerText_single {directory : Directory} {file : Path × Bytes}
    (single : directory.files = [file]) :
    outerText sha256 directory = fileText sha256 file := by
  rw [outerText, sorted_of_files single (List.pairwise_singleton _ file)]
  exact List.append_nil _

/-- Several files are not identified. -/
theorem not_identified_of_several {directory : Directory}
    (free : CollisionFree sha256 (hashedStrings sha256 directory))
    {file next : Path × Bytes} {files : List (Path × Bytes)}
    (several : directory.sorted = file :: next :: files) :
    ¬ Identified sha256 directory := by
  have inside : ∀ other ∈ file :: next :: files, other ∈ directory.files := by
    intro other member
    rw [← several] at member
    exact directory.mem_sorted_iff.mp member
  have nonempty : ∀ other ∈ file :: next :: files, other.1 ≠ [] :=
    fun other member => directory.path_ne_nil (inside other member)
  rcases exists_single (@fuseAll_ne_nil sha256 _ _ nonempty)
      (fuseAll sha256 file (next :: files)).2 with
    ⟨other, single⟩
  refine
    not_identified_of_text free (fun _ member => member) other ?_ ?_ ?_
  · rw [outerText_single single, fileText_fuseAll nonempty, outerText, several]
  · intro found member
    rw [single] at member
    rcases @exists_mem_fuseAll sha256 file (next :: files) with
      ⟨last, among, same⟩
    rw [List.mem_singleton.mp member]
    change (fuseAll sha256 file (next :: files)).2 ∈ _
    rw [same]
    exact bytes_mem (inside last among)
  · intro same
    have apart := directory.pairwise_sorted
    rw [several] at apart
    have before :=
      (List.pairwise_cons.mp apart).1 next List.mem_cons_self
    have first := (same file).mpr (inside file List.mem_cons_self)
    have second := (same next).mpr (inside next (by simp))
    rw [single] at first second
    rw [List.mem_singleton] at first second
    exact
      (apart_of_before before).ne
        (congrArg Prod.fst (first.trans second.symm))

/-- A name that is not plain shows like another one. -/
theorem exists_otherName {name : Name} (plain : ¬ Plain name.bytes) :
    ∃ other : Name, other ≠ name ∧ lossy other.bytes = lossy name.bytes := by
  rcases exists_lossy_eq plain with
    ⟨bytes, different, same, known, high, member, large⟩
  have absent {byte : UInt8} (missing : byte ∉ name.bytes)
      (small : ¬ 0x80 ≤ byte) : byte ∉ bytes := by
    intro inside
    rcases known byte inside with old | new
    · exact missing old
    · exact small new
  refine
    ⟨⟨bytes, List.ne_nil_of_mem member, absent name.noSlash (by decide),
      absent name.noNul (by decide), ?_, ?_⟩, ?_, same⟩
  · rintro rfl
    rw [List.mem_singleton.mp member] at large
    exact absurd large (by decide)
  · rintro rfl
    rcases List.mem_cons.mp member with rfl | last
    · exact absurd large (by decide)
    · rw [List.mem_singleton.mp last] at large
      exact absurd large (by decide)
  · intro sameName
    exact different (congrArg Name.bytes sameName)

/-- A path with a name that is not plain is not identified. -/
theorem not_identified_of_name {directory : Directory}
    (free : CollisionFree sha256 (hashedStrings sha256 directory))
    {path : Path} {bytes : Bytes}
    (single : directory.files = [(path, bytes)]) {name : Name}
    (member : name ∈ path) (plain : ¬ Plain name.bytes) :
    ¬ Identified sha256 directory := by
  rcases exists_otherName plain with ⟨name', different, same⟩
  rcases List.append_of_mem member with ⟨front, back, rfl⟩
  have nonempty : front ++ name' :: back ≠ [] := by simp
  rcases exists_single nonempty bytes with ⟨other, single'⟩
  refine
    not_identified_of_text free (fun _ member => member) other ?_ ?_ ?_
  · rw [outerText_single single, outerText_single single', fileText, fileText,
      lossy_pathBytes, lossy_pathBytes]
    simp [same]
  · intro file inside
    rw [single'] at inside
    rw [List.mem_singleton.mp inside]
    exact
      @bytes_mem sha256 directory (front ++ name :: back, bytes)
        (by rw [single]; exact List.mem_singleton_self _)
  · intro sameFiles
    have there := (sameFiles (front ++ name' :: back, bytes)).mp (by
      rw [single']
      exact List.mem_singleton_self _)
    rw [single, List.mem_singleton, Prod.mk.injEq] at there
    exact different (List.cons.inj (List.append_cancel_left there.1)).1

/-- A path that can be read as two is not identified. -/
theorem not_identified_of_read {directory : Directory}
    (free : CollisionFree sha256 (hashedStrings sha256 directory))
    {path front back : Path} {bytes inner : Bytes}
    (single : directory.files = [(path, bytes)]) (before : Before front back)
    (read :
      pathBytes path =
        pathBytes front ++ (mark (sha256 inner) ++ pathBytes back)) :
    ¬ Identified sha256 directory := by
  rcases free.exists_cons inner with ⟨added, digests, free'⟩
  rcases exists_pair added bytes (apart_of_before before) with
    ⟨other, pair⟩
  have here : (path, bytes) ∈ directory.files := by
    rw [single]
    exact List.mem_singleton_self _
  have sorted : other.sorted = [(front, added), (back, bytes)] := by
    refine sorted_of_files pair ?_
    exact List.pairwise_pair.mpr (le_of_before before)
  refine
    not_identified_of_text free'
      (fun _ member => List.mem_cons_of_mem _ member) other ?_ ?_ ?_
  · have middle : mark (sha256 inner) ≠ [] := List.cons_ne_nil _ _
    rw [outerText_single single, outerText, sorted, fileText, read,
      lossy_around_ascii (fun _ => ascii_mark) middle, ← digests]
    simp [fileText]
  · intro file inside
    rw [pair] at inside
    rcases List.mem_cons.mp inside with rfl | last
    · exact List.mem_cons_self
    · rw [List.mem_singleton.mp last]
      exact List.mem_cons_of_mem _ (@bytes_mem sha256 _ (path, bytes) here)
  · intro same
    have first := (same (front, added)).mp (by rw [pair]; simp)
    have second := (same (back, bytes)).mp (by rw [pair]; simp)
    rw [single, List.mem_singleton, Prod.mk.injEq] at first second
    exact (apart_of_before before).ne (first.1.trans second.1.symm)

/-! ## Directories that are identified -/

/-- The empty directory is identified. -/
theorem identified_of_empty {directory : Directory}
    (empty : directory.files = []) : Identified sha256 directory := by
  intro other free same
  have text := outerText_eq free same
  have nothing : directory.sorted = [] :=
    sorted_of_files empty List.Pairwise.nil
  rw [outerText, outerText, nothing, List.flatMap_nil,
    List.flatMap_eq_nil_iff] at text
  have none : other.sorted = [] := by
    rw [List.eq_nil_iff_forall_not_mem]
    exact fun file member => fileText_ne_nil file (text file member)
  intro file
  rw [← other.mem_sorted_iff, none, empty]

/-- A directory with one file is identified if its path is read once. -/
theorem identified_of_readOnce {directory : Directory} {path : Path}
    {bytes : Bytes} (single : directory.files = [(path, bytes)])
    (once : ReadOnce sha256 path) : Identified sha256 directory := by
  intro other free same
  have text := outerText_eq free same
  have here : (path, bytes) ∈ directory.files := by
    rw [single]
    exact List.mem_singleton_self _
  rw [outerText_single single, outerText] at text
  have inside : ∀ file ∈ other.sorted, file ∈ other.files :=
    fun file member => other.mem_sorted_iff.mp member
  have ordered := other.pairwise_sorted
  cases sorted : other.sorted with
  | nil =>
      rw [sorted, List.flatMap_nil] at text
      exact absurd text.symm (fileText_ne_nil _)
  | cons file files =>
      rw [sorted] at inside ordered text
      have nonempty : ∀ one ∈ file :: files, one.1 ≠ [] :=
        fun one member => other.path_ne_nil (inside one member)
      rw [← fileText_fuseAll nonempty] at text
      rcases fileText_inj text with ⟨shown, digests⟩
      have paths : (fuseAll sha256 file files).1 = path :=
        path_eq_of_lossy (directory.path_ne_nil here)
          (fuseAll_ne_nil nonempty) once.1 shown
      cases files with
      | nil =>
          have known : file.2 = bytes := by
            refine
              free _ (List.mem_append_right _ (bytes_mem ?_)) _
                (List.mem_append_left _ (bytes_mem here)) digests
            exact inside file List.mem_cons_self
          have files : file = (path, bytes) := Prod.ext paths known
          intro one
          rw [← other.mem_sorted_iff, sorted, single, files]
      | cons next files =>
          have before :=
            (List.pairwise_cons.mp ordered).1 next List.mem_cons_self
          refine
            absurd ?_
              (once.2 file.1 (fuseAll sha256 next files).1 file.2
                (before_fuseAll before))
          rw [← paths, fuseAll]
          refine pathBytes_fuse _ (nonempty file List.mem_cons_self) ?_
          exact
            fuseAll_ne_nil fun one member =>
              nonempty one (List.mem_cons_of_mem _ member)

/-! ## Directories with plain paths -/

/-- A path of plain names on one line. -/
def OneLine (path : Path) : Prop :=
  ∀ name ∈ path, Plain name.bytes ∧ 0x0A ∉ name.bytes

theorem mem_pathBytes {path : Path} {byte : UInt8}
    (member : byte ∈ pathBytes path) :
    byte = 0x2F ∨ ∃ name ∈ path, byte ∈ name.bytes := by
  induction path with
  | nil => cases member
  | cons name path induction =>
      cases path with
      | nil => exact Or.inr ⟨name, List.mem_cons_self, member⟩
      | cons next path =>
          rw [pathBytes_cons] at member
          rcases List.mem_append.mp member with here | later
          · exact Or.inr ⟨name, List.mem_cons_self, here⟩
          · rcases List.mem_cons.mp later with slash | inside
            · exact Or.inl slash
            · rcases induction inside with slash | ⟨other, listed, there⟩
              · exact Or.inl slash
              · exact Or.inr ⟨other, List.mem_cons_of_mem _ listed, there⟩

theorem OneLine.lossy_pathBytes {path : Path} (oneLine : OneLine path) :
    lossy (pathBytes path) = pathBytes path := by
  rw [Registry.lossy_pathBytes, pathBytes]
  refine congrArg (separated 0x2F) (List.map_congr_left ?_)
  exact fun name member => lossy_of_wellFormed (oneLine name member).1.1

theorem OneLine.ne_newline {path : Path} (oneLine : OneLine path) :
    ∀ byte ∈ pathBytes path, byte ≠ 0x0A := by
  rintro byte newline rfl
  rcases mem_pathBytes newline with slash | ⟨name, member, inside⟩
  · exact absurd slash (by decide)
  · exact (oneLine name member).2 inside

/-- A path of plain names on one line can be read once. -/
theorem OneLine.readOnce {path : Path} (oneLine : OneLine path) :
    ReadOnce sha256 path := by
  refine ⟨fun name member => (oneLine name member).1, ?_⟩
  intro front back bytes before read
  refine oneLine.ne_newline 0x0A ?_ rfl
  rw [read]
  simp [mark]

theorem stops_mark (digest : Digest) (rest : Bytes) :
    Stops (fun byte => byte ≠ 0x0A) (mark digest ++ rest) :=
  Stops.cons fun newline => newline rfl

/-- Files with paths on one line are read off their texts, up to digests. -/
theorem files_eq_of_texts {files files' : List (Path × Bytes)}
    (oneLine : ∀ file ∈ files ++ files', OneLine file.1)
    (nonempty : ∀ file ∈ files ++ files', file.1 ≠ [])
    (same :
      files.flatMap (fileText sha256) = files'.flatMap (fileText sha256)) :
    (files.map fun file => (file.1, sha256 file.2)) =
      files'.map fun file => (file.1, sha256 file.2) := by
  induction files generalizing files' with
  | nil =>
      cases files' with
      | nil => rfl
      | cons file' files' =>
          simp [fileText, mark] at same
  | cons file files induction =>
      cases files' with
      | nil => simp [fileText, mark] at same
      | cons file' files' =>
          have here : OneLine file.1 := oneLine file (by simp)
          have there : OneLine file'.1 := oneLine file' (by simp)
          rw [List.flatMap_cons, List.flatMap_cons, fileText, fileText,
            here.lossy_pathBytes, there.lossy_pathBytes, List.append_assoc,
            List.append_assoc] at same
          rcases run_append_inj here.ne_newline there.ne_newline
              (stops_mark _ _) (stops_mark _ _) same with
            ⟨paths, rest⟩
          have path : file.1 = file'.1 :=
            pathBytes_inj (nonempty file (by simp))
              (nonempty file' (by simp)) paths
          have lengths :
              (mark (sha256 file.2)).length =
                (mark (sha256 file'.2)).length := by
            rw [length_mark, length_mark]
          rcases List.append_inj rest lengths with ⟨digests, texts⟩
          have among : ∀ other ∈ files ++ files',
              other ∈ (file :: files) ++ file' :: files' := by
            intro other member
            rcases List.mem_append.mp member with old | new
            · simp [old]
            · simp [new]
          have others :=
            induction (fun other member => oneLine other (among other member))
              (fun other member => nonempty other (among other member)) texts
          rw [List.map_cons, List.map_cons, others, path,
            mark_injective digests]

/-- Among directories with plain paths on one line, one hash is one directory. -/
theorem sameFiles_of_oneLine {directory other : Directory}
    (free :
      CollisionFree sha256
        (hashedStrings sha256 directory ++ hashedStrings sha256 other))
    (oneLine : ∀ file ∈ directory.files, OneLine file.1)
    (oneLine' : ∀ file ∈ other.files, OneLine file.1)
    (same : hashDirectory sha256 other = hashDirectory sha256 directory) :
    SameFiles other directory := by
  have text := outerText_eq free same
  have member {one : Directory} {file : Path × Bytes}
      (inside : file ∈ one.sorted) : file ∈ one.files :=
    one.mem_sorted_iff.mp inside
  have read :=
    files_eq_of_texts
      (fun file inside =>
        (List.mem_append.mp inside).elim
          (fun there => oneLine' file (member there))
          fun here => oneLine file (member here))
      (fun file inside =>
        (List.mem_append.mp inside).elim
          (fun there => other.path_ne_nil (member there))
          fun here => directory.path_ne_nil (member here))
      text
  have paths : other.sorted.map Prod.fst = directory.sorted.map Prod.fst := by
    have firsts := congrArg (List.map Prod.fst) read
    rwa [List.map_map, List.map_map] at firsts
  have contents :
      other.sorted.map Prod.snd = directory.sorted.map Prod.snd := by
    have digests := congrArg (List.map Prod.snd) read
    rw [List.map_map, List.map_map] at digests
    refine free.map_inj ?_ ?_ (by rw [List.map_map, List.map_map]; exact digests)
    · intro bytes inside
      rcases List.mem_map.mp inside with ⟨file, there, rfl⟩
      exact List.mem_append_right _ (bytes_mem (member there))
    · intro bytes inside
      rcases List.mem_map.mp inside with ⟨file, here, rfl⟩
      exact List.mem_append_left _ (bytes_mem (member here))
  have sorted : other.sorted = directory.sorted :=
    (List.zip_of_prod paths contents).trans
      (List.zip_of_prod rfl rfl).symm
  intro file
  rw [← other.mem_sorted_iff, sorted, directory.mem_sorted_iff]

/-- Directories with the same files have the same hash. -/
theorem hashDirectory_eq_of_sameFiles {directory other : Directory}
    (same : SameFiles other directory) :
    hashDirectory sha256 other = hashDirectory sha256 directory := by
  have less {file file' : Path × Bytes} (before : Before file.1 file'.1) :
      file.1 < file'.1 := by
    rcases before with ⟨name, name', differ, less⟩
    exact lt_of_firstDifference differ less
  have nodup (one : Directory) : one.sorted.Nodup := by
    refine one.pairwise_sorted.imp ?_
    rintro file _ before rfl
    exact lt_irrefl _ (less before)
  have rearranged : other.sorted.Perm directory.sorted := by
    rw [List.perm_ext_iff_of_nodup (nodup other) (nodup directory)]
    intro file
    rw [other.mem_sorted_iff, directory.mem_sorted_iff]
    exact same file
  have sorted : other.sorted = directory.sorted := by
    apply rearranged.eq_of_pairwise _ other.pairwise_sorted
      directory.pairwise_sorted
    intro file file' _ _ before after
    exact absurd (less before) (lt_asymm (less after))
  rw [hashDirectory, hashDirectory, outerText, outerText, sorted]

/-! ## Three directories -/

def nameA : Name :=
  ⟨[0x61], by decide, by decide, by decide, by decide, by decide⟩

def nameB : Name :=
  ⟨[0x62], by decide, by decide, by decide, by decide, by decide⟩

/-- A directory with a file `a`. -/
def oneFile : Directory where
  listing := .file nameA [0x78] .done
  distinct := ⟨List.not_mem_nil, trivial⟩

/-- A directory with files `a` and `b`. -/
def twoFiles : Directory where
  listing := .file nameA [0x78] (.file nameB [0x79] .done)
  distinct := ⟨by simp [Listing.names, nameA, nameB], List.not_mem_nil, trivial⟩

/-- A directory with one file whose name is the text of `a`, and `b`. -/
def gluedFile : Directory where
  listing := .file (glue nameA (Sha256.sha256 [0x78]) nameB) [0x79] .done
  distinct := ⟨List.not_mem_nil, trivial⟩

theorem outerText_oneFile :
    outerText Sha256.sha256 oneFile =
      fileText Sha256.sha256 ([nameA], [0x78]) :=
  outerText_single rfl

theorem outerText_twoFiles :
    outerText Sha256.sha256 twoFiles =
      [([nameA], [0x78]), ([nameB], [0x79])].flatMap
        (fileText Sha256.sha256) := by
  have files :
      twoFiles.files = [([nameA], [0x78]), ([nameB], [0x79])] :=
    rfl
  rw [outerText, sorted_of_files files (List.pairwise_pair.mpr (by decide))]

theorem outerText_gluedFile :
    outerText Sha256.sha256 gluedFile = outerText Sha256.sha256 twoFiles := by
  have single :
      gluedFile.files =
        [fuseAll Sha256.sha256 ([nameA], [0x78]) [([nameB], [0x79])]] :=
    rfl
  rw [outerText_single single, outerText_twoFiles]
  exact fileText_fuseAll (by simp)

/--
Without collisions among its own strings, a directory is identified by its
hash exactly if it has no file, or one file whose path can be read once.
-/
theorem identified_iff_readOnce {directory : Directory}
    (free : CollisionFree sha256 (hashedStrings sha256 directory)) :
    Identified sha256 directory ↔
      directory.files = [] ∨
        ∃ path bytes,
          directory.files = [(path, bytes)] ∧ ReadOnce sha256 path := by
  constructor
  · intro identified
    cases sorted : directory.sorted with
    | nil =>
        have perm := directory.sorted_perm
        rw [sorted] at perm
        exact Or.inl perm.nil_eq.symm
    | cons file files =>
        cases files with
        | cons next files =>
            exact
              absurd identified (not_identified_of_several free sorted)
        | nil =>
            have perm := directory.sorted_perm
            rw [sorted] at perm
            have single : directory.files = [(file.1, file.2)] :=
              List.perm_singleton.mp perm.symm
            refine Or.inr ⟨file.1, file.2, single, ?_, ?_⟩
            · intro name member
              by_contra plain
              exact not_identified_of_name free single member plain identified
            · intro front back inner before read
              exact not_identified_of_read free single before read identified
  · rintro (empty | ⟨path, bytes, single, once⟩)
    · exact identified_of_empty empty
    · exact identified_of_readOnce single once

/-- A directory with one file of a plain name is identified. -/
theorem identified_oneFile : Identified Sha256.sha256 oneFile := by
  have free :
      CollisionFree Sha256.sha256 (hashedStrings Sha256.sha256 oneFile) := by
    rw [hashedStrings, outerText_oneFile]
    decide +kernel
  have oneLine : OneLine [nameA] := by
    intro name member
    rw [List.mem_singleton.mp member]
    exact ⟨⟨by decide, by decide⟩, by decide⟩
  exact
    (identified_iff_readOnce free).mpr
      (Or.inr ⟨[nameA], [0x78], rfl, oneLine.readOnce⟩)

/-- Two files have the hash of a file with a longer name. -/
theorem not_sameFiles_gluedFile :
    CollisionFree Sha256.sha256
        (hashedStrings Sha256.sha256 twoFiles ++
          hashedStrings Sha256.sha256 gluedFile) ∧
      hashDirectory Sha256.sha256 gluedFile =
          hashDirectory Sha256.sha256 twoFiles ∧
        ¬ SameFiles gluedFile twoFiles := by
  refine ⟨?_, ?_, ?_⟩
  · rw [hashedStrings, hashedStrings, outerText_gluedFile, outerText_twoFiles]
    decide +kernel
  · rw [hashDirectory, hashDirectory, outerText_gluedFile]
  · intro same
    have listed := (same ([nameA], [0x78])).mpr List.mem_cons_self
    have bytes := congrArg Prod.snd (List.mem_singleton.mp listed)
    exact absurd bytes (by decide)

end Trackward.Gateway.RegistryHashes
