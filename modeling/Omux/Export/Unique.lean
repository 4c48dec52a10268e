import Mathlib.Data.Set.Function
import Omux.Export.GitTree

/-!
# One export for every tree

The walk checks every object against its identity before it uses it, so two readers that
let the walk come to its end gave it the same objects.  What the walk collects then fixes
the two files, and the verifier compares them byte for byte.
-/

namespace Omux.Export

open Library List

def identify (digests : Digests) (object : Kind × Bytes) : Bytes :=
  objectId digests object.1 object.2

def Reader.objects (reader : Reader) : Set (Kind × Bytes) :=
  { object | exists oid, reader oid = .ok object }

def artifactObjects (digests : Digests) (tarfile : Tarfile) (tarValue proofValue : Bytes) :
    Set (Kind × Bytes) :=
  { object | exists objects, readArtifacts digests tarfile tarValue proofValue = .ok objects ∧
    object ∈ Reader.objects (artifactReader objects) }

section

variable {digests : Digests} {reader other : Reader} {considered : Set (Kind × Bytes)}

/-!
## The walk over two readers
-/

theorem checkedObject_inv {oid value : Bytes} {kind : Kind}
    (h : checkedObject digests reader oid kind = .ok value) :
    (kind, value) ∈ reader.objects ∧ identify digests (kind, value) = oid := by
  rcases bind_eq_ok.mp h with ⟨_, _, h⟩
  rcases bind_eq_ok.mp h with ⟨⟨_, content⟩, hread, h⟩
  rcases bind_eq_ok.mp h with ⟨_, hkind, h⟩
  rcases bind_eq_ok.mp h with ⟨_, hdigest, h⟩
  have hvalue : content = value := pure_eq_ok.mp h
  simp only [require, ok_iff, bool_iff] at hkind hdigest
  rw [<- hvalue, <- hkind.left]
  exact ⟨⟨oid, hread⟩, hdigest⟩

variable (hinj : considered.InjOn (identify digests)) (hreader : reader.objects ⊆ considered)
  (hother : other.objects ⊆ considered)
include hinj hreader hother

theorem checkedObject_agrees (oid : Bytes) (kind : Kind) :
    Agrees (checkedObject digests reader oid kind) (checkedObject digests other oid kind) := by
  intro a b ha hb
  rcases checkedObject_inv ha with ⟨hfound, hid⟩
  rcases checkedObject_inv hb with ⟨hfound', hid'⟩
  have hsame := hinj (hreader hfound) (hother hfound') (hid.trans hid'.symm)
  exact congrArg Prod.snd hsame

theorem visit_agrees {down down' : Bytes -> Bytes -> Walked -> Checked Walked}
    (hdown : forall oid path s, Agrees (down oid path s) (down' oid path s)) (pre : Bytes)
    (s : Walked) (entry : TreeEntry) :
    Agrees (visit digests reader down pre s entry) (visit digests other down' pre s entry) := by
  refine agrees_bind (agrees_refl _) (fun _ => ?_)
  split
  · exact hdown _ _ _
  · exact agrees_bind (checkedObject_agrees hinj hreader hother _ _) (fun _ => agrees_refl _)

theorem walk_agrees (depth : Nat) (tree pre : Bytes) (ancestors : List Bytes) (s : Walked) :
    Agrees (walk digests reader depth tree pre ancestors s)
      (walk digests other depth tree pre ancestors s) := by
  induction depth generalizing tree pre ancestors s with
  | zero => exact agrees_refl _
  | succ depth ih =>
    refine agrees_bind (agrees_refl _) (fun _ => ?_)
    refine agrees_bind (checkedObject_agrees hinj hreader hother _ _) (fun _ => ?_)
    refine agrees_bind (agrees_refl _) (fun _ => agrees_bind (agrees_refl _) (fun entries => ?_))
    exact agrees_foldlM (visit_agrees hinj hreader hother
      (fun oid path s => ih oid path (tree :: ancestors) s) pre) entries

theorem snapshotTree_agrees (root : Bytes) :
    Agrees (snapshotTree digests reader root) (snapshotTree digests other root) :=
  agrees_bind (walk_agrees hinj hreader hother 64 root [] [] {}) (fun _ => agrees_refl _)

end

/-!
## The verifier
-/

section

variable {digests : Digests} {tarfile : Tarfile} {root tarValue proofValue : Bytes}

theorem verifyArtifacts_inv {answer : Bytes × List Row}
    (h : verifyArtifacts digests tarfile root tarValue proofValue = .ok answer) :
    exists reader found,
      Reader.objects reader ⊆ artifactObjects digests tarfile tarValue proofValue ∧
      snapshotTree digests reader root = .ok found ∧ answer = (root, found.records) ∧
      proofBytes digests found.proof = .ok proofValue ∧
      canonicalTar tarfile found.records found.blobs = .ok tarValue := by
  rcases bind_eq_ok.mp h with ⟨objects, hobjects, h⟩
  rcases bind_eq_ok.mp h with ⟨found, hfound, h⟩
  rcases bind_eq_ok.mp h with ⟨_, _, h⟩
  rcases bind_eq_ok.mp h with ⟨_, hused, h⟩
  rcases bind_eq_ok.mp h with ⟨_, hproof, h⟩
  rcases bind_eq_ok.mp h with ⟨_, htar, h⟩
  rcases bind_eq_ok.mp h with ⟨_, hbytes, h⟩
  simp only [require, ok_iff, bool_iff] at hproof hbytes
  rw [hproof] at hused
  rw [hbytes] at htar
  exact ⟨artifactReader objects, found, fun _ hobject => ⟨objects, hobjects, hobject⟩, hfound,
    (pure_eq_ok.mp h).symm, hused, htar⟩

/-- For every store whose reader lets the walk come to its end, accepted files are the files
that the store gives. -/
theorem verifyArtifacts_of_snapshotTree {considered : Set (Kind × Bytes)} {reader : Reader}
    {found : Snapshot} {answer : Bytes × List Row} (hinj : considered.InjOn (identify digests))
    (hfiles : artifactObjects digests tarfile tarValue proofValue ⊆ considered)
    (hreader : reader.objects ⊆ considered)
    (h : verifyArtifacts digests tarfile root tarValue proofValue = .ok answer)
    (hfound : snapshotTree digests reader root = .ok found) :
    answer = (root, found.records) ∧ proofBytes digests found.proof = .ok proofValue ∧
      canonicalTar tarfile found.records found.blobs = .ok tarValue := by
  rcases verifyArtifacts_inv h with ⟨_, snapshot, hown, hsnap, hrest⟩
  have hsame : snapshot = found :=
    snapshotTree_agrees hinj (hown.trans hfiles) hreader root _ _ hsnap hfound
  rw [hsame] at hrest
  exact hrest

end

/-- A tree has at most one accepted export, which is what every store gives for it. -/
theorem accepted_export_unique (digests : Digests) (tarfile : Tarfile) (root : Bytes)
    (considered : Set (Kind × Bytes)) (hinj : considered.InjOn (identify digests))
    (tarValue proofValue : Bytes) (answer : Bytes × List Row)
    (hfiles : artifactObjects digests tarfile tarValue proofValue ⊆ considered)
    (h : verifyArtifacts digests tarfile root tarValue proofValue = .ok answer) :
    (forall tarValue' proofValue' answer', artifactObjects digests tarfile tarValue' proofValue' ⊆
      considered -> verifyArtifacts digests tarfile root tarValue' proofValue' = .ok answer' ->
      tarValue = tarValue' ∧ proofValue = proofValue' ∧ answer = answer') ∧
    (forall reader found, Reader.objects reader ⊆ considered ->
      snapshotTree digests reader root = .ok found ->
      answer = (root, found.records) ∧ proofBytes digests found.proof = .ok proofValue ∧
      canonicalTar tarfile found.records found.blobs = .ok tarValue) := by
  constructor
  · intro tarValue' proofValue' answer' hfiles' h'
    rcases verifyArtifacts_inv h' with ⟨reader, found, hreader, hfound, hanswer, hproof, htar⟩
    rcases verifyArtifacts_of_snapshotTree hinj hfiles (hreader.trans hfiles') h hfound
      with ⟨hanswer', hproof', htar'⟩
    rw [htar] at htar'
    rw [hproof] at hproof'
    exact ⟨(Except.ok.inj htar').symm, (Except.ok.inj hproof').symm, hanswer'.trans hanswer.symm⟩
  · intro reader found hreader hfound
    exact verifyArtifacts_of_snapshotTree hinj hfiles hreader h hfound

def sampleDigests : Digests where
  sha1 := fun value => replicate 40 (if value.head? = some 0x74 then 0x31 else 0x32)
  sha256 := id

def sampleTree : Bytes :=
  ascii "100644 a" ++ [0] ++ replicate 20 0x22

def sampleProof : Bytes :=
  magic ++ replicate 20 0x11 ++ ascii "t" ++ [0, 0, 0, 0, 0, 0, 0, 29] ++ sampleTree

def sampleTarfile : Tarfile where
  write := fun members => pure (members.flatMap TarMember.payload)
  read := fun value => pure
    [{ name := ascii "a", type := .file, mode := 0o444, size := value.length, payload := value }]

theorem sample_objects : artifactObjects sampleDigests sampleTarfile (ascii "hi") sampleProof ⊆
      {(.tree, sampleTree), (.blob, ascii "hi")} := by
  rintro _ ⟨_, hread, oid, hobject⟩
  have hobjects : readArtifacts sampleDigests sampleTarfile (ascii "hi") sampleProof =
      .ok ([(replicate 40 0x31, sampleTree)], [(replicate 40 0x32, ascii "hi")]) := by
    decide +kernel
  rw [hobjects] at hread
  rw [<- Except.ok.inj hread] at hobject
  simp only [artifactReader, lookup_cons] at hobject
  cases hroot : oid == replicate 40 (0x31 : UInt8) with
  | true =>
    rw [hroot] at hobject
    exact Or.inl (pure_eq_ok.mp hobject).symm
  | false =>
    rw [hroot] at hobject
    rcases bind_eq_ok.mp hobject with ⟨_, hvalue, hpair⟩
    cases hfile : oid == replicate 40 (0x32 : UInt8) with
    | true =>
      rw [hfile] at hvalue
      rw [<- pure_eq_ok.mp hpair, <- Option.some.inj (orFail_eq_ok.mp hvalue)]
      exact Or.inr rfl
    | false => cases hfile ▸ hvalue

theorem accepted_export_unique_one_file :
    exists answer, verifyArtifacts sampleDigests sampleTarfile (replicate 40 0x31)
      (ascii "hi") sampleProof = .ok answer ∧
    forall reader found, Reader.objects reader ⊆ {(.tree, sampleTree), (.blob, ascii "hi")} ->
      snapshotTree sampleDigests reader (replicate 40 0x31) = .ok found ->
      answer.2 = found.records := by
  have hacc : Succeeds (verifyArtifacts sampleDigests sampleTarfile
      (replicate 40 0x31) (ascii "hi") sampleProof) := by
    decide +kernel
  rcases hacc with ⟨answer, h⟩
  have hinj : Set.InjOn (identify sampleDigests) {(.tree, sampleTree), (.blob, ascii "hi")} := by
    rintro a (rfl | rfl) b (rfl | rfl) hsame
    · rfl
    · exact absurd hsame (by decide)
    · exact absurd hsame (by decide)
    · rfl
  have hunique := accepted_export_unique sampleDigests sampleTarfile _ _ hinj _ _ _ sample_objects h
  refine ⟨answer, h, fun reader found hreader hfound => ?_⟩
  rw [(hunique.right reader found hreader hfound).left]

end Omux.Export
