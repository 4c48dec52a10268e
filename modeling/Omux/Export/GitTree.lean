import Omux.Library.Binary
import Omux.Library.Fallible
import Omux.Library.Json

/-!
# Exporting a Git tree

A tree is exported as a tar file of its entries and a proof file of its tree objects.  The
walk over the tree does not trust its reader, and the verifier runs the same walk over
the two files.

The deadline and the read budget are left out: a tick can only raise.  Texts are byte
slices that were checked to be UTF-8.  The digests and Python's `tarfile` are parameters.
-/

namespace Omux.Export

open Library

def maxBlob : Nat := 64 * 1024 * 1024
def maxTree : Nat := 8 * 1024 * 1024
def maxProof : Nat := 16 * 1024 * 1024
def maxSource : Nat := 512 * 1024 * 1024
def maxTar : Nat := 1024 * 1024 * 1024
def maxEntries : Nat := 20000
def magic : Bytes := ascii "OMUX-GIT-TREE-PROOF-1\n"

inductive Refusal where
  | refused (message : String)
  | unicode | missing | tarfile
deriving DecidableEq

abbrev Checked := Except Refusal

def require (cond : Bool) (message : String) : Checked Unit :=
  failIf (!cond) (.refused message)

def decode (text : Bytes) : Checked Bytes := do
  failIf (!utf8ValidateSlice text) .unicode
  pure text

inductive Kind where
  | commit | tree | blob
deriving DecidableEq

def Kind.text : Kind -> Bytes
  | .commit => ascii "commit"
  | .tree => ascii "tree"
  | .blob => ascii "blob"

inductive Mode where
  | directory | file | executable | link
deriving DecidableEq

def Mode.ofText (text : Bytes) : Option Mode :=
  if text = ascii "40000" then some .directory
  else if text = ascii "100644" then some .file
  else if text = ascii "100755" then some .executable
  else if text = ascii "120000" then some .link
  else none

structure Digests where
  sha1 : Bytes -> Bytes
  sha256 : Bytes -> Bytes

abbrev Objects := List (Bytes × Bytes)

def Objects.put (objects : Objects) (oid value : Bytes) : Objects :=
  (oid, value) :: objects.filter (fun object => object.1 != oid)

abbrev Reader := Bytes -> Checked (Kind × Bytes)

def isControl (byte : UInt8) : Bool :=
  byte < 32 || byte == 127

def isOid (text : Bytes) : Bool :=
  text.length == 40 && text.all (fun byte => isDigit byte || (0x61 <= byte && byte <= 0x66))

def component (name : Bytes) : Checked Bytes := do
  require (0 < name.length && name.length <= 100 &&
      !([ascii ".", ascii "..", ascii ".git"].contains name) && !name.any isControl &&
      !name.contains 0x2F && !name.contains 0x5C) "unsupported Git path component"
  decode name

/-!
## Tree objects
-/

structure TreeEntry where
  mode : Mode
  name : Bytes
  oid : Bytes

/-- Directories are sorted as if their names ended with a slash. -/
def TreeEntry.sortKey (entry : TreeEntry) : Bytes :=
  entry.name ++ [if entry.mode = .directory then 0x2F else 0]

def sorted (texts : List Bytes) : List Bytes :=
  texts.mergeSort (fun a b => decide (a <= b))

def treeRows (rest : Bytes) (rows : List TreeEntry) : Checked (List TreeEntry) :=
  match rest with
  | [] => pure rows
  | byte :: bytes => do
    let text := (byte :: bytes).takeWhile (· != 0x20)
    let rawName := ((byte :: bytes).drop (text.length + 1)).takeWhile (· != 0)
    let after := (byte :: bytes).drop (text.length + rawName.length + 2)
    require (0 < text.length && text.length + 1 + rawName.length < bytes.length + 1 &&
      20 <= after.length) "malformed Git tree"
    failIf (text.any (0x80 <= ·)) .unicode
    let mode <- orFail (Mode.ofText text) (.refused "unsupported Git mode or submodule")
    let name <- component rawName
    require (!rows.any (fun row => row.name == name)) "duplicate Git tree name"
    treeRows (after.drop 20) (rows ++ [⟨mode, name, lowerHex (after.take 20)⟩])
termination_by rest.length
decreasing_by
  simp only [List.length_drop, List.length_cons]
  omega

def treeEntries (value : Bytes) : Checked (List TreeEntry) := do
  require (value.length <= maxTree) "tree object exceeds bound"
  let rows <- treeRows value []
  require (rows.map TreeEntry.sortKey == sorted (rows.map TreeEntry.sortKey))
    "Git tree order differs"
  pure rows

section

variable (digests : Digests)

def objectId (kind : Kind) (value : Bytes) : Bytes :=
  digests.sha1 (kind.text ++ [0x20] ++ decimal value.length ++ [0] ++ value)

def checkedObject (reader : Reader) (oid : Bytes) (expected : Kind) : Checked Bytes := do
  require (isOid oid) "invalid Git object identity"
  let object <- reader oid
  require (object.1 == expected &&
      object.2.length <= (if object.1 = .blob then maxBlob else maxTree))
    "object type or length differs"
  require (objectId digests object.1 object.2 == oid) "Git object digest differs"
  pure object.2

/-!
## The walk
-/

structure Row where
  path : Bytes
  mode : Mode
  oid : Bytes
  bytes : Nat
  sha256 : Option Bytes
deriving DecidableEq

structure Walked where
  proof : Objects := []
  records : List Row := []
  blobs : Objects := []
  sourceBytes : Nat := 0

def isSpace (byte : UInt8) : Bool :=
  byte == 0x20 || (9 <= byte && byte <= 13)

/-- `[-!]?filter(?:=|\s|$)` at the start of the text. -/
def filterStarts (text : Bytes) : Bool :=
  let word := if text.head?.any (fun byte => byte == 0x2D || byte == 0x21) then text.tail else text
  (ascii "filter").isPrefixOf word &&
    (word.drop 6).head?.all (fun byte => byte == 0x3D || isSpace byte)

/-- The search for a filter attribute, at the start or after white space. -/
def namesFilter (payload : Bytes) : Bool :=
  filterStarts payload ||
    payload.tails.any (fun text => text.head?.any isSpace && filterStarts text.tail)

def visit (reader : Reader) (down : Bytes -> Bytes -> Walked -> Checked Walked)
    (pre : Bytes) (s : Walked) (entry : TreeEntry) : Checked Walked := do
  let path := pre ++ entry.name
  require (path.length <= 240 && s.records.length < maxEntries) "export inventory exceeds bound"
  if entry.mode = .directory then
    down entry.oid (path ++ [0x2F])
      { s with records := s.records ++ [⟨path, entry.mode, entry.oid, 0, none⟩] }
  else
    let payload <- checkedObject digests reader entry.oid .blob
    require (s.sourceBytes + payload.length <= maxSource) "source export exceeds bound"
    require (!(entry.name == ascii ".gitattributes" && namesFilter payload))
      "Git filters unsupported"
    pure { s with
      sourceBytes := s.sourceBytes + payload.length
      blobs := s.blobs.put entry.oid payload
      records := s.records ++
        [⟨path, entry.mode, entry.oid, payload.length, some (digests.sha256 payload)⟩] }

/-- `depth` is how many more ancestors a tree may have. -/
def walk (reader : Reader) : Nat -> Bytes -> Bytes -> List Bytes -> Walked -> Checked Walked
  | 0, _, _, _, _ => .error (.refused "nested or cyclic Git tree")
  | depth + 1, tree, pre, ancestors, s => do
    require (!ancestors.contains tree) "nested or cyclic Git tree"
    let value <- checkedObject digests reader tree .tree
    let proof := s.proof.put tree value
    require ((proof.map (fun object => object.2.length)).sum <= maxProof)
      "object proof exceeds bound"
    let entries <- treeEntries value
    entries.foldlM (visit digests reader
      (fun oid path s => walk reader depth oid path (tree :: ancestors) s) pre)
      { s with proof }

/-!
## Links
-/

def joined (parts : List Bytes) : Bytes :=
  [0x2F].intercalate parts

def modeAt (records : List Row) (parts : List Bytes) : Option Mode :=
  (records.find? (fun row => row.path == joined parts)).map Row.mode

def linkPart (records : List Row) (parts : List Bytes) (part : Bytes) : Checked (List Bytes) := do
  require (parts.isEmpty || modeAt records parts == some .directory)
    "symlink traverses non-directory"
  if part = [] || part = ascii "." then pure parts
  else if part = ascii ".." then
    require (!parts.isEmpty) "escaping symlink"
    pure parts.dropLast
  else
    let name <- component part
    pure (parts ++ [name])

def resolveLink (records : List Row) (blobs : Objects) (row : Row) : Checked Unit :=
  if row.mode = .link then do
    let value <- orFail (blobs.lookup row.oid) .missing
    require (0 < value.length && value.length <= 100 && !value.any isControl)
      "unsupported symlink payload"
    let target <- decode value
    require (target.head? != some 0x2F && !target.contains 0x5C) "escaping symlink"
    let parts <- (target.splitOn 0x2F).foldlM (linkPart records)
      (row.path.splitOn 0x2F).dropLast
    require (!parts.isEmpty && (modeAt records parts).isSome)
      "dangling or root symlink unsupported"
    require (parts.inits.tail.all (fun some =>
        (modeAt records some).any (· != .link))) "nested symlink unsupported"
  else pure ()

structure Snapshot where
  records : List Row
  proof : Objects
  blobs : Objects

def snapshotTree (reader : Reader) (root : Bytes) : Checked Snapshot := do
  let s <- walk digests reader 64 root [] [] {}
  let records := s.records.mergeSort (fun a b => decide (a.path <= b.path))
  require (decide (records.map Row.path).Nodup) "duplicate export path"
  checkAll (resolveLink records s.blobs) records
  pure ⟨records, s.proof, s.blobs⟩

/-!
## The proof file
-/

def hexValue (byte : UInt8) : UInt8 :=
  if isDigit byte then byte - 0x30 else byte - 0x57

def fromHex : Bytes -> Bytes
  | high :: low :: rest => (hexValue high * 16 + hexValue low) :: fromHex rest
  | _ => []

def appendObject (result : Bytes) (object : Bytes × Bytes) : Checked Bytes := do
  require (objectId digests .tree object.2 == object.1) "proof identity differs"
  let result := result ++ fromHex object.1 ++ ascii "t" ++
    (littleEndian 8 object.2.length).reverse ++ object.2
  require (result.length <= maxProof) "proof framing exceeds bound"
  pure result

def proofBytes (proof : Objects) : Checked Bytes :=
  (proof.mergeSort (fun a b => decide (a.1 <= b.1))).foldlM (appendObject digests) magic

def proofObjects (rest : Bytes) (found : Objects) (last : Bytes) : Checked Objects :=
  match rest with
  | [] => pure found
  | byte :: bytes => do
    require (29 <= bytes.length + 1) "truncated proof header"
    let oid := lowerHex ((byte :: bytes).take 20)
    let length := fromLittleEndian (((byte :: bytes).drop 21).take 8).reverse
    let payload := ((byte :: bytes).drop 29).take length
    require (((byte :: bytes).drop 20).take 1 == ascii "t" && length <= maxTree &&
      29 + length <= bytes.length + 1 && decide (last < oid)) "invalid or duplicate proof object"
    require (objectId digests .tree payload == oid) "proof object digest differs"
    require ((found.put oid payload).length <= maxEntries + 1)
      "proof object count exceeds bound"
    proofObjects ((byte :: bytes).drop (29 + length)) (found.put oid payload) oid
termination_by rest.length
decreasing_by
  simp only [List.length_drop, List.length_cons]
  omega

def parseProof (value : Bytes) : Checked Objects := do
  require (value.length <= maxProof && magic.isPrefixOf value) "proof format differs"
  proofObjects digests (value.drop magic.length) [] []

/-!
## The tar file
-/

inductive MemberType where
  | file | directory | link | other
deriving DecidableEq

structure TarMember where
  name : Bytes
  type : MemberType
  mode : Nat
  linkname : Bytes := []
  size : Nat := 0
  payload : Bytes := []
  uid : Nat := 0
  gid : Nat := 0
  mtime : Nat := 0
  uname : Bytes := []
  gname : Bytes := []
  paxHeaders : Bool := false

/-- Python's `tarfile`, in USTAR format. -/
structure Tarfile where
  write : List TarMember -> Checked Bytes
  read : Bytes -> Checked (List TarMember)

variable (tarfile : Tarfile)

def tarMember (blobs : Objects) (row : Row) : Checked TarMember :=
  match row.mode with
  | .directory => pure { name := row.path, type := .directory, mode := 0o555 }
  | .link => do
    let value <- orFail (blobs.lookup row.oid) .missing
    let linkname <- decode value
    pure { name := row.path, type := .link, mode := 0o777, linkname }
  | mode => do
    let payload <- orFail (blobs.lookup row.oid) .missing
    pure {
      name := row.path, type := .file, size := row.bytes, payload := payload
      mode := if mode = .executable then 0o555 else 0o444 }

def canonicalTar (records : List Row) (blobs : Objects) : Checked Bytes := do
  let members <- records.mapM (tarMember blobs)
  let result <- tarfile.write members
  require (result.length <= maxTar) "tar framing exceeds bound"
  pure result

structure Admitted where
  blobs : Objects := []
  names : List Bytes := []
  payloadBytes : Nat := 0

/-- The text of a relative `PurePosixPath`. -/
def posixText (name : Bytes) : Bytes :=
  match (name.splitOn 0x2F).filter (fun part => part != [] && part != ascii ".") with
  | [] => ascii "."
  | parts => joined parts

def admitMember (s : Admitted) (member : TarMember) : Checked Admitted := do
  require (s.names.length + 1 <= maxEntries && !s.names.contains member.name &&
      member.name != [] && posixText member.name == member.name &&
      member.name.head? != some 0x2F && member.type != .other && !member.paxHeaders &&
      member.uid == 0 && member.gid == 0 && member.mtime == 0 && member.uname == [] &&
      member.gname == []) "unsupported tar member"
  let _ <- (member.name.splitOn 0x2F).mapM component
  let s := { s with names := member.name :: s.names }
  let keep := fun (payload : Bytes) => do
    require (s.payloadBytes + payload.length <= maxSource) "tar aggregate payload exceeds bound"
    pure { s with
      payloadBytes := s.payloadBytes + payload.length
      blobs := s.blobs.put (objectId digests .blob payload) payload }
  match member.type with
  | .file => do
    require (member.size <= maxBlob) "tar payload exceeds bound"
    require (s.payloadBytes + member.size <= maxSource) "tar aggregate payload exceeds bound"
    require (member.payload.length == member.size) "truncated tar payload"
    keep member.payload
  | .link => do
    require (member.size == 0) "symlink tar size differs"
    keep member.linkname
  | _ => do
    require (member.size == 0) "directory tar size differs"
    pure s

/-- The objects of the two files: the trees of the proof and the blobs of the tar. -/
def readArtifacts (tarValue proofValue : Bytes) : Checked (Objects × Objects) := do
  require (tarValue.length <= maxTar) "tar input exceeds bound"
  let proof <- parseProof digests proofValue
  let members <- tarfile.read tarValue
  let s <- members.foldlM (admitMember digests) {}
  pure (proof, s.blobs)

def artifactReader (objects : Objects × Objects) : Reader := fun oid =>
  match objects.1.lookup oid with
  | some value => pure (.tree, value)
  | none => do
    let value <- orFail (objects.2.lookup oid) (.refused "Git blob missing from tar")
    pure (.blob, value)

def verifyArtifacts (root tarValue proofValue : Bytes) : Checked (Bytes × List Row) := do
  let objects <- readArtifacts digests tarfile tarValue proofValue
  let found <- snapshotTree digests (artifactReader objects) root
  require (found.proof.all (fun used => (objects.1.lookup used.1).isSome) &&
    objects.1.all (fun declared => (found.proof.lookup declared.1).isSome))
    "undeclared proof objects"
  let used <- proofBytes digests found.proof
  require (used == proofValue) "undeclared proof objects"
  let tar <- canonicalTar tarfile found.records found.blobs
  require (tar == tarValue) "noncanonical or substituted tar bytes"
  pure (root, found.records)

end

end Omux.Export
