import WatchMe.Daemon.Registry
import WatchMe.Effects.Ensures
import WatchMe.Effects.Interpret

/-! # The state files

`JsonStore` writes a state file by way of a temporary one: it is created, written and synced, takes
the place of the old file, and then the directory is synced. Every one of these operations may fail.
The directory is a map from names to nodes, to which the operations are requests; the walk to it and
the clock and process id that make up a temporary name are answered by the host.
-/
namespace WatchMe
open Effects

/-- An `io::Error`: whether its kind is `Unsupported`, its code and its text. -/
structure IoError where
  unsupported : Bool
  raw : Option Nat
  text : String
  deriving DecidableEq, Repr

def enoent : Nat := 2

inductive StoreError where
  | unsafePath (path : String)
  | io (error : IoError)
  | serialize (error : String)
  deriving DecidableEq, Repr

def StoreError.text : StoreError → String
  | .unsafePath path => "state path is unsafe: " ++ path
  | .io error => "state I/O failed: " ++ error.text
  | .serialize error => "state serialization failed: " ++ error

inductive PathPart where
  | rootDir
  | curDir
  | parentDir
  | normal (name : String)
  deriving DecidableEq, Repr

def PathPart.text? : PathPart → Option String
  | rootDir => none
  | curDir => some "."
  | parentDir => some ".."
  | normal name => some name

def displayPath (path : List PathPart) : String :=
  "/" ++ String.intercalate "/" (path.filterMap PathPart.text?)

inductive FileType where
  | regular
  | symlink
  | other
  deriving DecidableEq, Repr

inductive FileNode where
  | file (bytes : List UInt8)
  | symlink
  | other
  deriving DecidableEq, Repr

def FileNode.type : FileNode → FileType
  | file _ => .regular
  | symlink => .symlink
  | other => .other

/-- `serde_json` for the values of a type. -/
class JsonCodec (V : Type) where
  toVec : V → Except String (List UInt8)
  fromSlice : List UInt8 → Except String V

/-- `path` has the components of the path that `display` shows. -/
structure JsonStore where
  path : List PathPart
  display : String
  maxBytes : Nat

inductive Stored (V : Type) where
  | missing
  | present (value : V)
  | corrupt (quarantine : List PathPart)
  deriving DecidableEq

inductive StoreOp where
  | physicalize (path : List PathPart)
  /-- The next directory on the way, from `/` on. -/
  | openDirectory (name : Option String)
  | statDirectory
  | geteuid
  | processId
  | nanos
  | statAt (name : String)
  | create (name : String)
  | writeAll (name : String) (bytes : List UInt8)
  | flush (name : String)
  | syncAll (name : String)
  | renameAt (name newName : String)
  | syncDirectory
  | unlinkAt (name : String)
  | openRead (name : String)
  | fstat (name : String)
  | getFlags (name : String)
  | setFlags (name : String) (flags : Nat)
  | read (name : String) (limit : Nat)

@[reducible] def StoreOp.Answer : StoreOp → Type
  | physicalize _ => Except IoError (List PathPart)
  | statDirectory => Except IoError (Nat × Nat)
  | geteuid | processId | nanos => Nat
  | statAt _ => Except IoError FileType
  | fstat _ => Except IoError (FileType × Int)
  | getFlags _ => Except IoError Nat
  | read _ _ => Except IoError (List UInt8)
  | _ => Except IoError Unit

abbrev storeSig : Signature := ⟨StoreOp,StoreOp.Answer⟩

abbrev StoreM (α : Type) := ExceptT StoreError (Program storeSig) α

def call (op : StoreOp) : Program storeSig op.Answer :=
  Program.request (S := storeSig) op

abbrev Directory := StrMap FileNode

/-- An operation that fails leaves the directory, but for a write, which may have come to any
point. Nothing else writes to the directory. -/
def directoryWorld : World storeSig Directory where
  Answers s e s' := match e with
    | ⟨.statAt name,.ok type⟩ => s' = s ∧ s[name]?.map (·.type) = some type
    | ⟨.create name,.ok _⟩ => s[name]? = none ∧ s' = s.insert name (.file [])
    | ⟨.writeAll name bytes,.ok _⟩ => s' = s.insert name (.file bytes)
    | ⟨.writeAll name bytes,.error _⟩ => ∃ n, s' = s.insert name (.file (bytes.take n))
    | ⟨.renameAt name newName,.ok _⟩ =>
      ∃ node, s[name]? = some node ∧ s' = (s.erase name).insert newName node
    | ⟨.unlinkAt name,.ok _⟩ => s' = s.erase name
    | ⟨.openRead name,.ok _⟩ => s' = s ∧ ∃ node, s[name]? = some node ∧ node ≠ .symlink
    | ⟨.openRead name,.error error⟩ => s' = s ∧ (error.raw = some enoent → s[name]? = none)
    | ⟨.fstat name,.ok (type,size)⟩ => s' = s ∧ ∃ node, s[name]? = some node ∧
      node.type = type ∧ ∀ bytes, node = .file bytes → size = bytes.length
    | ⟨.read name limit,.ok bytes⟩ => s' = s ∧
      ∃ content, s[name]? = some (.file content) ∧ bytes = content.take limit
    | _ => s' = s
  Restarts _ _ := False

namespace JsonStore

def io {α : Type} (p : Program storeSig (Except IoError α)) : StoreM α :=
  ExceptT.adapt StoreError.io (ExceptT.mk p)

def checked {α : Type} (result : Except StoreError α) : StoreM α := ExceptT.mk (pure result)

def required {α : Type} (found : Option α) (error : StoreError) : Except StoreError α :=
  match found with
  | some value => .ok value
  | none => .error error

def fileName (path : List PathPart) : Option String :=
  match path.getLast? with
  | some (.normal name) => some name
  | _ => none

def parentOf (path : List PathPart) : Option (List PathPart) :=
  match path.getLast? with
  | some .rootDir | none => none
  | _ => some path.dropLast

structure TrustedParent where
  path : List PathPart
  name : String

/-- The loop over the components of the physical path `whole`. -/
def openComponents (whole : List PathPart) : List PathPart → StoreM Unit
  | [] => pure ()
  | .rootDir :: parts => openComponents whole parts
  | .normal name :: parts => do
    io (call (.openDirectory (some name)))
    openComponents whole parts
  | .curDir :: _ | .parentDir :: _ => throw (.unsafePath (displayPath whole))

def verifyDirectory (path : List PathPart) : StoreM Unit := do
  let (uid,mode) ← io (call .statDirectory)
  let expected ← ExceptT.lift (call .geteuid)
  checked (refuseIf (uid != expected || mode &&& 0o022 != 0)
    (.unsafePath ("untrusted state directory " ++ displayPath path)))

def openParent (path : List PathPart) : StoreM TrustedParent := do
  checked (refuseIf (path.head? != some .rootDir) (.unsafePath "state path must be absolute"))
  let name ← checked (required (fileName path) (.unsafePath "state path has no filename"))
  let parentPath ← checked (required (parentOf path) (.unsafePath "state path has no parent"))
  let parentPath ← io (call (.physicalize parentPath))
  io (call (.openDirectory none))
  openComponents parentPath parentPath
  verifyDirectory parentPath
  return ⟨parentPath,name⟩

def generated (name label : String) (pid nonce : Nat) : String :=
  name ++ ("." ++ label ++ "-" ++ toString pid ++ "-" ++ toString nonce)

def generatedName (name label : String) : StoreM String := do
  let nonce ← ExceptT.lift (call .nanos)
  let pid ← ExceptT.lift (call .processId)
  return generated name label pid nonce

def isUnsupportedDirectorySync (error : IoError) : Bool :=
  error.unsupported || error.raw == some 22 || error.raw == some 95

def syncDirectory : ExceptT IoError (Program storeSig) Unit :=
  ExceptT.mk (call .syncDirectory >>= fun synced => pure (match synced with
    | .ok _ => .ok ()
    | .error error => if isUnsupportedDirectorySync error then .ok () else .error error))

def fill (name : String) (bytes : List UInt8) : ExceptT IoError (Program storeSig) Unit := do
  ExceptT.mk (call (.writeAll name bytes))
  ExceptT.mk (call (.flush name))
  ExceptT.mk (call (.syncAll name))

/-- A file that could not be finished is removed; whether that works is not looked at. -/
def orRemoved (name : String) (body : ExceptT IoError (Program storeSig) Unit) : StoreM Unit :=
  ExceptT.mk (body.run >>= fun result => match result with
    | .ok _ => pure (.ok ())
    | .error error => call (.unlinkAt name) >>= fun _ => pure (.error (.io error)))

/-- The body of `write_impl` under which the temporary file takes its place. -/
def install (temporary name : String) (bytes : List UInt8) :
    ExceptT IoError (Program storeSig) Unit := do
  fill temporary bytes
  ExceptT.mk (call (.renameAt temporary name))
  syncDirectory

def targetVerdict (store : JsonStore) : Except IoError FileType → Except StoreError Unit
  | .ok .symlink => .error (.unsafePath store.display)
  | .ok _ => .ok ()
  | .error error => if error.raw = some enoent then .ok () else .error (.io error)

def checkTarget (store : JsonStore) (name : String) : StoreM Unit :=
  ExceptT.mk (call (.statAt name) >>= fun found => pure (store.targetVerdict found))

variable {V : Type} [JsonCodec V]

def writeImpl (store : JsonStore) (value : V) : StoreM Unit := do
  let bytes ← checked ((JsonCodec.toVec value).mapError .serialize)
  checked (refuseIf (decide (store.maxBytes < bytes.length))
    (.unsafePath "serialized state exceeds size limit"))
  let parent ← openParent store.path
  store.checkTarget parent.name
  let temporary ← generatedName parent.name "tmp"
  io (call (.create temporary))
  orRemoved temporary (install temporary parent.name bytes)

/-- The bytes that were read are copied beside the file. -/
def quarantine (parent : TrustedParent) (evidence : List UInt8) : StoreM (Stored V) := do
  let name ← generatedName parent.name "corrupt"
  io (call (.create name))
  orRemoved name (do
    fill name evidence
    syncDirectory)
  return .corrupt (parent.path ++ [.normal name])

def decoded (store : JsonStore) (parent : TrustedParent) (bytes : List UInt8) :
    StoreM (Stored V) :=
  if bytes.length ≤ store.maxBytes then
    match (JsonCodec.fromSlice bytes : Except String V) with
    | .ok value => pure (.present value)
    | .error _ => quarantine parent bytes
  else quarantine parent bytes

def nonblock : Nat := 2048

def readOpened (store : JsonStore) (parent : TrustedParent) : StoreM (Stored V) := do
  let (type,size) ← io (call (.fstat parent.name))
  checked (refuseIf (type != .regular) (.unsafePath store.display))
  checked (refuseIf (decide (size < 0)) (.io ⟨false,none,"negative state size"⟩))
  let flags ← io (call (.getFlags parent.name))
  io (call (.setFlags parent.name (flags - (flags &&& nonblock))))
  let bytes ← io (call (.read parent.name (store.maxBytes + 1)))
  store.decoded parent bytes

def loadImpl (store : JsonStore) : StoreM (Stored V) := do
  let parent ← openParent store.path
  ExceptT.mk (call (.openRead parent.name) >>= fun opened => match opened with
    | .ok _ => (store.readOpened parent).run
    | .error error =>
      pure (if error.raw = some enoent then .ok .missing else .error (.io error)))

section Rules
variable {s : Directory}
variable {op : StoreOp}

theorem ensures_call {Q : List storeSig.Event → Directory → op.Answer → Prop}
    (h : ∀ r s', directoryWorld.Answers s ⟨op,r⟩ s' → Q [⟨op,r⟩] s' r) :
    directoryWorld.Ensures (call op) s Q :=
  World.ensures_ask.2 fun r s' hw => World.ensures_done.2 (h r s' hw)

theorem admits_call {Q : List storeSig.Event → Directory → op.Answer → Prop} :
    directoryWorld.Admits (call op) s Q ↔
      ∃ r s', directoryWorld.Answers s ⟨op,r⟩ s' ∧ Q [⟨op,r⟩] s' r :=
  World.admits_ask.trans (exists₂_congr fun _ _ => and_congr_right fun _ => World.admits_done)

theorem ensures_checked {α β : Type} {result : Except StoreError α} {f : α → StoreM β}
    {R : List storeSig.Event → Directory → Except StoreError β → Prop} :
    directoryWorld.Ensures (checked result >>= f).run s R ↔ match result with
      | .ok a => directoryWorld.Ensures (f a).run s R
      | .error error => R [] s (.error error) := by
  cases result with
  | ok => exact Iff.rfl
  | error => exact World.ensures_done

theorem admits_checked {α β : Type} {result : Except StoreError α} {f : α → StoreM β}
    {R : List storeSig.Event → Directory → Except StoreError β → Prop} :
    directoryWorld.Admits (checked result >>= f).run s R ↔ match result with
      | .ok a => directoryWorld.Admits (f a).run s R
      | .error error => R [] s (.error error) := by
  cases result with
  | ok => exact Iff.rfl
  | error => exact World.admits_done

/-- The walk to the directory and the host's numbers do not touch the directory. -/
def Quiet : StoreOp → Prop
  | .physicalize _ | .openDirectory _ | .statDirectory | .geteuid | .processId | .nanos => True
  | _ => False

theorem quiet_answers (hop : Quiet op) {r : op.Answer} {s' : Directory} :
    directoryWorld.Answers s ⟨op,r⟩ s' ↔ s' = s := by
  cases op <;> first | exact Iff.rfl | exact hop.elim

theorem quiet_answered {h : List storeSig.Event} (hh : ∀ e ∈ h, Quiet e.op) {s' : Directory} :
    directoryWorld.Answered s h s' ↔ s' = s := by
  induction h with
  | nil =>
    constructor
    · exact World.Answered.nil_inv
    · rintro rfl
      exact .nil _
  | cons e h ih =>
    obtain ⟨he,hh⟩ := List.forall_mem_cons.1 hh
    constructor
    · intro hw
      obtain ⟨t,hfirst,hrest⟩ := hw.cons_inv
      obtain rfl := (quiet_answers he).1 hfirst
      exact (ih hh).1 hrest
    · rintro rfl
      exact .cons ((quiet_answers he).2 rfl) ((ih hh).2 rfl)

theorem asks_call {φ : StoreOp → Prop} (hop : φ op) : (call op).Asks φ :=
  ⟨hop,fun _ => trivial⟩

theorem asks_io {φ : StoreOp → Prop} {α : Type} {p : Program storeSig (Except IoError α)}
    (hp : p.Asks φ) : (io p).run.Asks φ :=
  hp.bind fun _ => trivial

theorem openComponents_quiet (whole parts : List PathPart) :
    (openComponents whole parts).run.Asks Quiet := by
  induction parts with
  | nil => trivial
  | cons part parts ih =>
    cases part with
    | rootDir => exact ih
    | curDir | parentDir => trivial
    | normal => exact Program.Asks.run_bind (asks_io (asks_call trivial)) fun _ => ih

theorem verifyDirectory_quiet (path : List PathPart) : (verifyDirectory path).run.Asks Quiet := by
  refine Program.Asks.run_bind (asks_io (asks_call trivial)) fun (uid,mode) => ?_
  exact Program.Asks.run_bind (Program.Asks.run_lift (asks_call trivial)) fun _ => trivial

theorem openParent_quiet (path : List PathPart) : (openParent path).run.Asks Quiet := by
  have hchecked : ∀ {α : Type} (result : Except StoreError α), (checked result).run.Asks Quiet :=
    fun _ => trivial
  refine (hchecked _).run_bind fun _ => (hchecked _).run_bind fun name =>
    (hchecked _).run_bind fun parent => ?_
  refine Program.Asks.run_bind (asks_io (asks_call trivial)) fun physical => ?_
  refine Program.Asks.run_bind (asks_io (asks_call trivial)) fun _ => ?_
  exact (openComponents_quiet _ _).run_bind fun _ =>
    (verifyDirectory_quiet _).run_bind fun _ => trivial

theorem openParent_name {path : List PathPart} {h : List storeSig.Event} {parent : TrustedParent}
    (ht : Program.Traces (openParent path).run h (.ok parent)) :
    fileName path = some parent.name := by
  obtain ⟨_,_,_,-,-,ht⟩ := ht.run_bind_ok_inv
  obtain ⟨_,_,name,-,hname,ht⟩ := ht.run_bind_ok_inv
  have hfound : fileName path = some name := by
    obtain ⟨-,heq⟩ := Program.Traces.done_inv hname
    unfold required at heq
    split at heq
    · next found => exact found.trans (congrArg some (Except.ok.inj heq).symm)
    · cases heq
  obtain ⟨_,_,_,-,-,ht⟩ := ht.run_bind_ok_inv
  obtain ⟨_,_,physical,-,-,ht⟩ := ht.run_bind_ok_inv
  obtain ⟨_,_,_,-,-,ht⟩ := ht.run_bind_ok_inv
  obtain ⟨_,_,_,-,-,ht⟩ := ht.run_bind_ok_inv
  obtain ⟨_,_,_,-,-,ht⟩ := ht.run_bind_ok_inv
  obtain ⟨-,heq⟩ := Program.Traces.done_inv ht
  cases heq
  exact hfound

end Rules

end JsonStore

end WatchMe
