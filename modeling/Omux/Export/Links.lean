import Omux.Export.GitTree
import Mathlib.Data.List.Infix

/-!
# Exported links

What the check of the links reads off their targets is what a file system does with them: in
the extracted tree a target is resolved one component after the other, without leaving the
tree and without meeting a second link.
-/

namespace Omux.Export

open Library List

variable {records : List Row} {here final : List Bytes} {part : Bytes} {parts : List Bytes}

/-- The root of the export, or a recorded directory. -/
def IsDirectory (records : List Row) (here : List Bytes) : Prop :=
  here = [] ∨ modeAt records here = some .directory

/-- A recorded entry that is no link. -/
def IsPlain (records : List Row) (here : List Bytes) : Prop :=
  exists mode, modeAt records here = some mode ∧ mode ≠ .link

/-- The components of a relative path lead from `here` to `final`, as POSIX resolves them:
each is looked up in a directory, none leads above the root, and none is a link. -/
inductive Resolves (records : List Row) : List Bytes -> List Bytes -> List Bytes -> Prop where
  | done (here : List Bytes) : Resolves records here [] here
  | stay {here final parts : List Bytes} {part : Bytes} (hdirectory : IsDirectory records here)
      (hpart : part = [] ∨ part = ascii ".") (hrest : Resolves records here parts final) :
      Resolves records here (part :: parts) final
  | up {here final parts : List Bytes} (hdirectory : IsDirectory records here)
      (hinside : here ≠ []) (hrest : Resolves records here.dropLast parts final) :
      Resolves records here (ascii ".." :: parts) final
  | down {here final parts : List Bytes} {part : Bytes} (hdirectory : IsDirectory records here)
      (hname : part ≠ [] ∧ part ≠ ascii "." ∧ part ≠ ascii "..")
      (hentry : IsPlain records (here ++ [part]))
      (hrest : Resolves records (here ++ [part]) parts final) :
      Resolves records here (part :: parts) final

theorem isDirectory_of_linkPart {next : List Bytes} (h : linkPart records here part = .ok next) :
    IsDirectory records here := by
  rcases bind_eq_ok.mp h with ⟨_, hparent, _⟩
  exact or_iff_not_imp_left.mpr (by simpa [require] using hparent)

/-- Where a component leads, the next one is looked up; the last one is checked in the end. -/
theorem isPlain_of_foldlM (h : parts.foldlM (linkPart records) here = .ok final)
    (hfinal : IsPlain records final) (hinside : here ≠ []) : IsPlain records here := by
  cases parts with
  | nil =>
    cases h
    exact hfinal
  | cons =>
    rw [foldlM_cons, bind_eq_ok] at h
    rcases h with ⟨_, hpart, _⟩
    rcases isDirectory_of_linkPart hpart with hroot | hdirectory
    · exact absurd hroot hinside
    · exact ⟨.directory, hdirectory, by decide⟩

theorem resolves_of_foldlM (h : parts.foldlM (linkPart records) here = .ok final)
    (hfinal : IsPlain records final) : Resolves records here parts final := by
  induction parts generalizing here with
  | nil =>
    cases h
    exact .done _
  | cons part parts ih =>
    rw [foldlM_cons, bind_eq_ok] at h
    rcases h with ⟨_, hpart, hrest⟩
    have hdirectory := isDirectory_of_linkPart hpart
    simp only [linkPart, bind_eq_ok] at hpart
    rcases hpart with ⟨_, _, hpart⟩
    split_ifs at hpart with hstay hup
    · cases hpart
      exact .stay hdirectory (by simpa using hstay) (ih hrest)
    · simp only [require, ok_iff, bool_iff, isEmpty_eq_false_iff] at hpart
      rcases hpart with ⟨_, hinside, rfl⟩
      rw [hup]
      exact .up hdirectory hinside (ih hrest)
    · simp only [component, decode, ok_iff] at hpart
      rcases hpart with ⟨_, ⟨_, _, _, _, rfl⟩, rfl⟩
      simp only [Bool.or_eq_true, decide_eq_true_eq, not_or] at hstay
      exact .down hdirectory ⟨hstay.1, hstay.2, hup⟩ (isPlain_of_foldlM hrest hfinal (by simp))
        (ih hrest)

theorem resolveLink_resolves {blobs : Objects} {row : Row}
    (h : resolveLink records blobs row = .ok ()) (hlink : row.mode = .link) :
    exists target final, blobs.lookup row.oid = some target ∧ target ≠ [] ∧
      target.head? ≠ some 0x2F ∧ final ≠ [] ∧ IsPlain records final ∧
      Resolves records (row.path.splitOn 0x2F).dropLast (target.splitOn 0x2F) final := by
  simp only [resolveLink, if_pos hlink, require, decode, ok_iff, bool_iff] at h
  rcases h with ⟨target, htarget, _, ⟨⟨hpositive, _⟩, _⟩, _, ⟨_, _, rfl⟩, _, ⟨hrelative, _⟩,
    final, hfold, _, ⟨hinside, _⟩, hplain⟩
  have hnonempty : final ≠ [] := isEmpty_eq_false_iff.mp hinside
  have hfinal : IsPlain records final := by
    have hlast : final ∈ final.inits.tail := by
      cases final with
      | nil => exact absurd rfl hnonempty
      | cons => simp [inits]
    have hmode := all_eq_true.mp hplain final hlast
    rcases hmode' : modeAt records final with _ | mode
    · rw [hmode'] at hmode
      cases hmode
    · rw [hmode'] at hmode
      exact ⟨mode, hmode', by simpa using hmode⟩
  exact ⟨target, final, htarget, ne_nil_of_length_pos hpositive, hrelative, hnonempty,
    hfinal, resolves_of_foldlM hfold hfinal⟩

/-- Every exported link leads to a recorded entry, inside the tree and through directories. -/
theorem exported_links_stay_inside (digests : Digests) (reader : Reader) (root : Bytes)
    (snapshot : Snapshot) (h : snapshotTree digests reader root = .ok snapshot) (row : Row)
    (hrow : row ∈ snapshot.records) (hlink : row.mode = .link) :
    exists target final, snapshot.blobs.lookup row.oid = some target ∧ target ≠ [] ∧
      target.head? ≠ some 0x2F ∧ final ≠ [] ∧ IsPlain snapshot.records final ∧
      Resolves snapshot.records (row.path.splitOn 0x2F).dropLast (target.splitOn 0x2F) final := by
  simp only [snapshotTree, ok_iff] at h
  rcases h with ⟨_, _, _, _, _, hlinks, rfl⟩
  exact resolveLink_resolves (checkAll_eq_ok.mp hlinks row hrow) hlink

def linkDigests : Digests where
  sha1 := fun value => replicate 40
    (if value.length = 36 then 0x31 else if value.length = 37 then 0x32 else 0x33)
  sha256 := id

/-- A directory `d` with a link `l` to `../d` in it. -/
def linkReader : Reader := fun oid => pure (
  if oid.head? = some 0x31 then (.tree, ascii "40000 d" ++ [0] ++ replicate 20 0x22)
  else if oid.head? = some 0x32 then (.tree, ascii "120000 l" ++ [0] ++ replicate 20 0x33)
  else (.blob, ascii "../d"))

def linkRow : Row where
  path := ascii "d/l"
  mode := .link
  oid := replicate 40 0x33
  bytes := 4
  sha256 := some (ascii "../d")

theorem exported_links_stay_inside_oneLink : exists snapshot final,
    snapshotTree linkDigests linkReader (replicate 40 0x31) = .ok snapshot ∧
      linkRow ∈ snapshot.records ∧
      Resolves snapshot.records [ascii "d"] [ascii "..", ascii "d"] final := by
  let rows := [⟨ascii "d", .directory, replicate 40 0x32, 0, none⟩, linkRow]
  have hwalked : (walk linkDigests linkReader 64 (replicate 40 0x31) [] [] {}).map
      (fun s => (s.records, s.blobs)) = .ok (rows, [(replicate 40 0x33, ascii "../d")]) := by
    decide +kernel
  cases hwalk : walk linkDigests linkReader 64 (replicate 40 0x31) [] [] {} with
  | error err => cases hwalk ▸ hwalked
  | ok s =>
    rw [hwalk] at hwalked
    have hrecs : s.records = rows := (Prod.mk.inj (Except.ok.inj hwalked)).1
    have hblobs : s.blobs = _ := (Prod.mk.inj (Except.ok.inj hwalked)).2
    have hrun : snapshotTree linkDigests linkReader (replicate 40 0x31) =
        .ok ⟨rows, s.proof, s.blobs⟩ := by
      rw [snapshotTree, hwalk, bind_ok, hrecs, hblobs, mergeSort_of_pairwise (by decide)]
      rfl
    rcases exported_links_stay_inside _ _ _ _ hrun linkRow (by simp [rows]) rfl with
      ⟨_, final, htarget, _, _, _, _, hresolves⟩
    rw [hblobs] at htarget
    cases htarget
    exact ⟨_, final, hrun, by simp [rows], hresolves⟩

end Omux.Export
