import Trackward.Lib.Collisions
import Trackward.Lib.Hexadecimal
import Trackward.Lib.LossyUtf8
import Trackward.Lib.PrefixCodes
import Trackward.Lib.TextOrders
import Mathlib.Data.List.Sort

/-!
# The hash of a registry directory

A prompt version is a directory.  The gateway collects its files, sorts them by
path and hashes, for each, a line with the path and a line with the digest of
the bytes.  Runs are bound to that hash.

A directory is modelled by what `read_dir` lists, in any order; its files are
then a finite map from paths to bytes.
-/

namespace Trackward.Gateway.Registry

open Trackward.Lib.Collisions
open Trackward.Lib.LossyUtf8
open Trackward.Lib.Octets
open Trackward.Lib.PrefixCodes (separated)
open Trackward.Lib.TextOrders
open Trackward.Lib

/-! ## Paths -/

/-- A name the file system allows in a directory. -/
structure Name where
  bytes : Bytes
  nonempty : bytes ≠ []
  noSlash : 0x2F ∉ bytes
  noNul : 0 ∉ bytes
  notDot : bytes ≠ [0x2E]
  notDotDot : bytes ≠ [0x2E, 0x2E]

namespace Name

@[ext]
theorem ext {first second : Name} (same : first.bytes = second.bytes) :
    first = second := by
  cases first
  cases second
  cases same
  rfl

/-- The bytes of a name as numbers, which compare like the name. -/
def units (name : Name) : List Nat :=
  name.bytes.map UInt8.toNat

theorem units_injective : Function.Injective units := by
  intro first second same
  have injective : Function.Injective UInt8.toNat :=
    fun _ _ equal => UInt8.toNat_inj.mp equal
  exact ext (List.map_injective_iff.mpr injective same)

/-- Names compare byte by byte. -/
instance : LinearOrder Name :=
  LinearOrder.lift' units units_injective

theorem lt_iff {first second : Name} :
    first < second ↔ first.units < second.units :=
  Iff.rfl

end Name

/-- A path below a directory; paths compare name by name. -/
abbrev Path := List Name

/-- The bytes of a path: its names, with slashes between them. -/
def pathBytes (path : Path) : Bytes :=
  separated 0x2F (path.map Name.bytes)

/-- One path comes before the other at the first names in which they differ. -/
def Before (path path' : Path) : Prop :=
  ∃ name name', firstDifference path path' = some (name, name') ∧ name < name'

/-! ## Directories -/

/-- What `read_dir` lists of a directory. -/
inductive Listing where
  | done
  | file (name : Name) (bytes : Bytes) (rest : Listing)
  | directory (name : Name) (inside rest : Listing)

namespace Listing

/-- The names in a directory. -/
def names : Listing → List Name
  | .done => []
  | .file name _ rest => name :: rest.names
  | .directory name _ rest => name :: rest.names

/-- No name is listed twice. -/
def Distinct : Listing → Prop
  | .done => True
  | .file name _ rest => name ∉ rest.names ∧ rest.Distinct
  | .directory name inside rest =>
      name ∉ rest.names ∧ inside.Distinct ∧ rest.Distinct

end Listing

/-- The files below a directory, with their paths and bytes. -/
def collectFiles (dir : Path) : Listing → List (Path × Bytes)
  | .done => []
  | .file name bytes rest => (dir ++ [name], bytes) :: collectFiles dir rest
  | .directory name inside rest =>
      collectFiles (dir ++ [name]) inside ++ collectFiles dir rest

/-- A directory of a file system. -/
structure Directory where
  listing : Listing
  distinct : listing.Distinct

/-- The files of a directory. -/
def Directory.files (directory : Directory) : List (Path × Bytes) :=
  collectFiles [] directory.listing

/-- The files sorted by their paths. -/
def Directory.sorted (directory : Directory) : List (Path × Bytes) :=
  directory.files.mergeSort fun first second => first.1 ≤ second.1

/-- Two directories have the same map from paths to bytes. -/
def SameFiles (directory directory' : Directory) : Prop :=
  ∀ file, file ∈ directory.files ↔ file ∈ directory'.files

/-! ## The hash -/

section Hash

variable (sha256 : Bytes → Digest)

/-- The rest of a file's text after its path. -/
def mark (digest : Digest) : Bytes :=
  0x0A :: (utf8 (Hexadecimal.encode digest.bytes) ++ [0x0A])

/-- What is hashed of a file. -/
def fileText (file : Path × Bytes) : Bytes :=
  lossy (pathBytes file.1) ++ mark (sha256 file.2)

/-- What is hashed of a directory. -/
def outerText (directory : Directory) : Bytes :=
  directory.sorted.flatMap (fileText sha256)

/-- The hash of a directory. -/
def hashDirectory (directory : Directory) : String :=
  Hexadecimal.encode (sha256 (outerText sha256 directory)).bytes

/-- Everything that is hashed for a directory. -/
def hashedStrings (directory : Directory) : List Bytes :=
  directory.files.map Prod.snd ++ [outerText sha256 directory]

end Hash

/-! ## Paths as bytes -/

theorem pathBytes_cons (name next : Name) (path : Path) :
    pathBytes (name :: next :: path) =
      name.bytes ++ 0x2F :: pathBytes (next :: path) :=
  rfl

/-- Words without slashes can be read off their text. -/
theorem words_eq_of_separated {words words' : List Bytes}
    (nonempty : words ≠ []) (nonempty' : words' ≠ [])
    (free : ∀ word ∈ words, 0x2F ∉ word)
    (free' : ∀ word ∈ words', 0x2F ∉ word)
    (same : separated 0x2F words = separated 0x2F words') :
    words = words' := by
  have intercalated : ∀ words : List Bytes,
      separated 0x2F words = [0x2F].intercalate words := by
    intro words
    induction words with
    | nil => rfl
    | cons word words induction =>
        cases words with
        | nil => simp [separated]
        | cons next words =>
            rw [separated, induction, List.intercalate_cons_cons]
            simp
  rw [intercalated, intercalated] at same
  have split := congrArg (List.splitOn 0x2F) same
  rwa [List.splitOn_intercalate 0x2F free nonempty,
    List.splitOn_intercalate 0x2F free' nonempty'] at split

/-- A path can be read off its bytes. -/
theorem pathBytes_inj {path path' : Path} (nonempty : path ≠ [])
    (nonempty' : path' ≠ []) (same : pathBytes path = pathBytes path') :
    path = path' := by
  have free : ∀ path : Path, ∀ word ∈ path.map Name.bytes, 0x2F ∉ word := by
    intro path word member
    rcases List.mem_map.mp member with ⟨name, _, rfl⟩
    exact name.noSlash
  have injective : Function.Injective Name.bytes :=
    fun _ _ equal => Name.ext equal
  exact
    List.map_injective_iff.mpr injective
      (words_eq_of_separated (by simpa using nonempty)
        (by simpa using nonempty') (free path) (free path') same)

theorem lossy_pathBytes (path : Path) :
    lossy (pathBytes path) =
      separated 0x2F (path.map fun name => lossy name.bytes) := by
  induction path with
  | nil => rfl
  | cons name path induction =>
      cases path with
      | nil => rfl
      | cons next path =>
          have slash : (0x2F : UInt8) < 0x80 := by decide
          rw [pathBytes_cons,
            lossy_append (not_isContinuation_of_ascii slash),
            lossy_cons_of_ascii slash, induction]
          rfl

/-! ## Texts of files -/

section Texts

variable {sha256 : Bytes → Digest}

theorem length_mark (digest : Digest) : (mark digest).length = 66 := by
  simp [mark, Hexadecimal.length_utf8_encode]

theorem mark_injective : Function.Injective mark := by
  intro first second same
  have texts := List.append_cancel_right (List.cons.inj same).2
  exact
    Block.ext (Hexadecimal.encode_injective (utf8_injective texts))

/-- The bytes of a mark are newlines and digits. -/
theorem mem_mark {digest : Digest} {byte : UInt8}
    (member : byte ∈ mark digest) :
    byte = 0x0A ∨ 0x30 ≤ byte ∧ byte ≤ 0x66 := by
  rcases List.mem_cons.mp member with first | later
  · exact Or.inl first
  · rcases List.mem_append.mp later with digit | last
    · exact Or.inr (Hexadecimal.range_of_mem_utf8_encode digit)
    · exact Or.inl (List.mem_singleton.mp last)

theorem ascii_mark {digest : Digest} {byte : UInt8}
    (member : byte ∈ mark digest) : byte < 0x80 := by
  rcases mem_mark member with rfl | ⟨_, small⟩
  · decide
  · exact UInt8.lt_of_le_of_lt small (by decide)

/-- The text of one file determines the path it shows, and the digest. -/
theorem fileText_inj {file file' : Path × Bytes}
    (same : fileText sha256 file = fileText sha256 file') :
    lossy (pathBytes file.1) = lossy (pathBytes file'.1) ∧
      sha256 file.2 = sha256 file'.2 := by
  have parts :=
    List.append_inj' same (by rw [length_mark, length_mark])
  exact ⟨parts.1, mark_injective parts.2⟩

theorem fileText_ne_nil (file : Path × Bytes) : fileText sha256 file ≠ [] := by
  simp [fileText, mark]

end Texts

/-! ## The files of a directory -/

/-- Neither path is a directory of the other, or the other. -/
def Apart (path path' : Path) : Prop :=
  firstDifference path path' ≠ none

theorem firstDifference_append (dir path path' : Path) :
    firstDifference (dir ++ path) (dir ++ path') =
      firstDifference path path' := by
  induction dir with
  | nil => rfl
  | cons name dir induction =>
      rw [List.cons_append, List.cons_append, firstDifference, if_pos rfl]
      exact induction

theorem Apart.symm {path path' : Path} (apart : Apart path path') :
    Apart path' path := by
  rcases Option.ne_none_iff_exists'.mp apart with ⟨⟨name, name'⟩, differ⟩
  rw [Apart, firstDifference_swap differ]
  exact Option.some_ne_none _

theorem Apart.ne {path path' : Path} (apart : Apart path path') :
    path ≠ path' := by
  rintro rfl
  exact apart (firstDifference_self path)

/-- Paths that are apart come one before the other. -/
theorem Apart.before {path path' : Path} (apart : Apart path path')
    (ordered : path ≤ path') : Before path path' := by
  rcases Option.ne_none_iff_exists'.mp apart with ⟨⟨name, name'⟩, differ⟩
  refine ⟨name, name', differ, ?_⟩
  have different := (split_of_firstDifference differ).1
  rcases lt_or_gt_of_ne different with less | more
  · exact less
  · have reversed := lt_of_firstDifference (firstDifference_swap differ) more
    exact absurd reversed (not_lt_of_ge ordered)

/-- Where the files of a listing are. -/
theorem mem_collectFiles {dir : Path} {listing : Listing}
    {file : Path × Bytes} (member : file ∈ collectFiles dir listing) :
    ∃ name ∈ listing.names, ∃ rest, file.1 = dir ++ name :: rest := by
  induction listing generalizing dir with
  | done => cases member
  | file name bytes rest induction =>
      rcases List.mem_cons.mp member with rfl | later
      · exact ⟨name, List.mem_cons_self, [], rfl⟩
      · rcases induction later with ⟨other, listed, path, same⟩
        exact ⟨other, List.mem_cons_of_mem _ listed, path, same⟩
  | directory name inside rest inner induction =>
      rcases List.mem_append.mp member with below | later
      · rcases inner below with ⟨other, _, path, same⟩
        refine ⟨name, List.mem_cons_self, other :: path, ?_⟩
        rw [same, List.append_assoc, List.singleton_append]
      · rcases induction later with ⟨other, listed, path, same⟩
        exact ⟨other, List.mem_cons_of_mem _ listed, path, same⟩

/-- Files under different names are apart. -/
theorem apart_of_names {dir rest : Path} {name : Name} {listing : Listing}
    {file : Path × Bytes} (absent : name ∉ listing.names)
    (member : file ∈ collectFiles dir listing) :
    Apart (dir ++ name :: rest) file.1 := by
  rcases mem_collectFiles member with ⟨other, listed, path, same⟩
  have different : name ≠ other := by
    rintro rfl
    exact absent listed
  rw [Apart, same, firstDifference_append, firstDifference, if_neg different]
  exact Option.some_ne_none _

/-- The files of a directory are apart. -/
theorem pairwise_collectFiles (dir : Path) {listing : Listing}
    (distinct : listing.Distinct) :
    (collectFiles dir listing).Pairwise fun file file' =>
      Apart file.1 file'.1 := by
  induction listing generalizing dir with
  | done => exact List.Pairwise.nil
  | file name bytes rest induction =>
      refine List.pairwise_cons.mpr ⟨?_, induction dir distinct.2⟩
      intro file member
      exact apart_of_names distinct.1 member
  | directory name inside rest inner induction =>
      refine
        List.pairwise_append.mpr
          ⟨inner _ distinct.2.1, induction dir distinct.2.2, ?_⟩
      intro file below file' later
      rcases mem_collectFiles below with ⟨other, _, path, same⟩
      rw [same, List.append_assoc, List.singleton_append]
      exact apart_of_names distinct.1 later

namespace Directory

variable (directory : Directory)

theorem sorted_perm : directory.sorted.Perm directory.files :=
  List.mergeSort_perm _ _

/-- In sorted order each file comes before the next ones. -/
theorem pairwise_sorted :
    directory.sorted.Pairwise fun file file' => Before file.1 file'.1 := by
  have apart :
      directory.sorted.Pairwise fun file file' => Apart file.1 file'.1 := by
    refine (directory.sorted_perm.pairwise_iff ?_).mpr
      (pairwise_collectFiles [] directory.distinct)
    exact fun apart => apart.symm
  have ordered :
      directory.sorted.Pairwise fun file file' =>
        decide (file.1 ≤ file'.1) = true := by
    refine List.pairwise_mergeSort ?_ ?_ _
    · intro first second third before after
      exact
        decide_eq_true
          (le_trans (of_decide_eq_true before) (of_decide_eq_true after))
    · intro first second
      rw [Bool.or_eq_true, decide_eq_true_iff, decide_eq_true_iff]
      exact le_total first.1 second.1
  exact
    (apart.and ordered).imp fun both =>
      both.1.before (of_decide_eq_true both.2)

theorem path_ne_nil {file : Path × Bytes} (member : file ∈ directory.files) :
    file.1 ≠ [] := by
  rcases mem_collectFiles member with ⟨name, _, rest, same⟩
  rw [same]
  exact List.cons_ne_nil name rest

theorem mem_sorted_iff {file : Path × Bytes} :
    file ∈ directory.sorted ↔ file ∈ directory.files :=
  directory.sorted_perm.mem_iff

end Directory

end Trackward.Gateway.Registry
