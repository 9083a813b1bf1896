import DayNight.Claim
import DayNight.Named
import DayNight.Synthetic.Camera

namespace DayNight

structure SyntheticLease where
  handle : SyntheticHandle
  claim : Camera
  deriving DecidableEq, Repr, Inhabited

namespace Rig

inductive Chore
  | close (handle : SyntheticHandle)
  | free (camera : Camera)
  deriving DecidableEq, Repr

end Rig

namespace SyntheticLease

open Rig (Chore)

-- A lease that goes away: its handle is closed first.
def dropped (l : SyntheticLease) : List Chore := [.close l.handle, .free l.claim]

-- A lease that is released closes its handle, and then goes away with the closed one.
def released (l : SyntheticLease) : List Chore :=
  .close l.handle :: { l with handle := l.handle.shut }.dropped

end SyntheticLease

-- An open that nobody waits for any more.
structure LateOpen where
  camera : Camera
  device : Device
  due : Moment

structure Rig where
  jpeg : JpegDecoder
  cameras : PerCamera SyntheticCamera
  claims : Claims
  handles : Named SyntheticHandle
  held : Named Camera
  leases : Named SyntheticLease
  now : Moment
  late : List LateOpen

namespace Rig

-- Cameras of the given size: by day of medium brightness, by night dark.
def new (jpeg : JpegDecoder) (width height : UInt32) : Rig where
  jpeg := jpeg
  cameras := ⟨.new width height 128, .new width height 20⟩
  claims := .none
  handles := .empty
  held := .empty
  leases := .empty
  now := .start
  late := []

def standard (jpeg : JpegDecoder) : Rig := new jpeg 64 48

def device : Camera → Device
  | .day => .index 0
  | .night => .path "/dev/night"

-- How long to wait for a device, and how long it takes to open.
structure Patience where
  limit : Duration
  delay : Duration
  deriving DecidableEq, Repr

inductive Action
  | setBrightness (camera : Camera) (value : Float)
  | setFailOpen (camera : Camera) (on : Bool)
  | setFailReads (camera : Camera) (on : Bool)
  | setReadDelay (camera : Camera) (delay : Duration)
  | inspect (camera : Camera)
  | openHandle (name : String) (camera : Camera) (device : Device) (patience : Option Patience)
  | read (name : String) (timeout : Duration)
  | peek (name : String) (timeout : Duration)
  | close (name : String)
  | drop (name : String)
  | claim (name : String) (camera : Camera)
  | unclaim (name : String)
  | lease (name : String)
  | release (name : String)
  | probe (camera : Camera) (patience : Patience) (timeout : Duration)

structure Inspection where
  brightness : Float
  opens : Nat
  openHandles : Int
  claimed : Bool

inductive Answer
  | done
  | unknownName
  | flag (b : Bool)
  | opened
  | camera (c : Option Camera)
  | image (i : Image)
  | value (x : Float)
  | sample (reading : Option (Camera × Float))
  | inspection (i : Inspection)
  | failed (e : SourceError)
  | brokenOff (o : Overflow)

def setCamera (r : Rig) (c : Camera) (state : SyntheticCamera) : Rig :=
  { r with cameras := r.cameras.set c state }

def pass (r : Rig) (d : Duration) : Rig := { r with now := r.now.after d }

def closed (r : Rig) (h : SyntheticHandle) : Rig :=
  r.setCamera h.camera ((r.cameras.get h.camera).closeHandle h)

def claimReleased (r : Rig) (c : Camera) : Rig := { r with claims := r.claims.release c }

def doChore (r : Rig) : Chore → Rig
  | .close h => r.closed h
  | .free c => r.claimReleased c

def finish (r : Rig) (chores : List Chore) : Rig := chores.foldl doChore r

def tryOpen (r : Rig) (c : Camera) (device : Device) : Except SourceError SyntheticHandle × Rig :=
  let (answer, state) := (r.cameras.get c).openDevice c device
  (answer, r.setCamera c state)

-- Opens a device for nobody: the handle is closed at once.
def openLate (r : Rig) (l : LateOpen) : Rig :=
  match r.tryOpen l.camera l.device with
  | (.ok h, r) => r.closed h
  | (.error _, r) => r

-- Finishes the opens that were given up and are due.
def settle (r : Rig) : Rig :=
  let due := r.late.filter fun l => l.due ≤ r.now
  let waiting := r.late.filter fun l => ¬l.due ≤ r.now
  due.foldl openLate { r with late := waiting }

def openDevice (r : Rig) (c : Camera) (device : Device) (patience : Option Patience) :
    Except SourceError SyntheticHandle × Rig :=
  match patience with
  | some p =>
    if p.delay < p.limit then (r.pass p.delay).settle.tryOpen c device
    else
      let late := r.late ++ [LateOpen.mk c device (r.now.after p.delay)]
      (.error (.openTimeout device.display p.limit), ({ r with late := late }.pass p.limit).settle)
  | none => r.tryOpen c device

-- Reads through the handle of the lease of that name, or else through the handle of that name.
def readNamed (r : Rig) (name : String) (timeout : Duration) :
    Option (Except SourceError Image × Rig) :=
  match r.leases.get? name, r.handles.get? name with
  | some l, _ =>
    let camera := r.cameras.get l.handle.camera
    let leases := r.leases.modify name fun l =>
      { l with handle := (camera.readImage l.handle timeout).2 }
    some ((camera.readImage l.handle timeout).1,
      { r with leases := leases }.pass (camera.readTime l.handle timeout))
  | none, some h =>
    let camera := r.cameras.get h.camera
    let handles := r.handles.modify name fun h => (camera.readImage h timeout).2
    some ((camera.readImage h timeout).1,
      { r with handles := handles }.pass (camera.readTime h timeout))
  | none, none => none

-- One brightness reading of a camera that nobody has claimed. What is opened is closed again before
-- the claim is given up.
def probe (r : Rig) (c : Camera) (patience : Patience) (timeout : Duration) :
    Except Overflow (Option Float) × Rig × List Chore :=
  match r.claims.claim? c with
  | none => (.ok none, r, [])
  | some claims =>
    match { r with claims := claims }.openDevice c (device c) (some patience) with
    | (.error _, r) => (.ok none, r, [.free c])
    | (.ok h, r) =>
      let camera := r.cameras.get c
      let (answer, h') := camera.readImage h timeout
      ((SourceError.peek r.jpeg answer).map (·.toOption), r.pass (camera.readTime h timeout),
        [.close h', .close h'.shut, .free c])

-- A name is given to a new handle; the old handle of that name goes away.
def putHandle (r : Rig) (name : String) (h : SyntheticHandle) : Rig × List Chore :=
  ({ r with handles := r.handles.put name h }, ((r.handles.get? name).map .close).toList)

def putHeld (r : Rig) (name : String) (c : Camera) : Rig × List Chore :=
  ({ r with held := r.held.put name c }, ((r.held.get? name).map .free).toList)

def putLease (r : Rig) (name : String) (l : SyntheticLease) : Rig × List Chore :=
  ({ r with leases := r.leases.put name l }, ((r.leases.get? name).map (·.dropped)).getD [])

-- Joins the handle and the claim of a name to a lease. A lone one of them is lost.
def makeLease (r : Rig) (name : String) : Option Camera × Rig × List Chore :=
  let rest := { r with handles := r.handles.erase name, held := r.held.erase name }
  match r.handles.get? name, r.held.get? name with
  | some h, some c => (some c, rest.putLease name ⟨h, c⟩)
  | some h, none => (none, rest, [.close h])
  | none, some c => (none, rest, [.free c])
  | none, none => (none, rest, [])

-- An operation up to its chores.
def act (rig : Rig) (action : Action) : Answer × Rig × List Chore :=
  let r := rig.settle
  match action with
  | .setBrightness c value => (.done, r.setCamera c ((r.cameras.get c).setBrightness value), [])
  | .setFailOpen c on => (.done, r.setCamera c { r.cameras.get c with failOpen := on }, [])
  | .setFailReads c on => (.done, r.setCamera c { r.cameras.get c with failReads := on }, [])
  | .setReadDelay c delay => (.done, r.setCamera c ((r.cameras.get c).setReadDelay delay), [])
  | .inspect c =>
    let camera := r.cameras.get c
    (.inspection ⟨camera.brightness, camera.opens, camera.openHandles, r.claims.isClaimed c⟩, r, [])
  | .openHandle name c device patience =>
    match r.openDevice c device patience with
    | (.ok h, r) => (.opened, r.putHandle name h)
    | (.error e, r) => (.failed e, r, [])
  | .read name timeout =>
    match r.readNamed name timeout with
    | some (.ok image, r) => (.image image, r, [])
    | some (.error e, r) => (.failed e, r, [])
    | none => (.unknownName, r, [])
  | .peek name timeout =>
    match r.readNamed name timeout with
    | some (answer, r) =>
      match SourceError.peek r.jpeg answer with
      | .ok (.ok value) => (.value value, r, [])
      | .ok (.error e) => (.failed e, r, [])
      | .error o => (.brokenOff o, r, [])
    | none => (.unknownName, r, [])
  | .close name =>
    match r.handles.get? name with
    | some h => (.done, { r with handles := r.handles.modify name (·.shut) }, [.close h])
    | none => (.unknownName, r, [])
  | .drop name =>
    match r.handles.get? name with
    | some h => (.flag true, { r with handles := r.handles.erase name }, [.close h])
    | none => (.flag false, r, [])
  | .claim name c =>
    match r.claims.claim? c with
    | some claims => (.camera (some c), { r with claims := claims }.putHeld name c)
    | none => (.camera none, r, [])
  | .unclaim name =>
    match r.held.get? name with
    | some c => (.flag true, { r with held := r.held.erase name }, [.free c])
    | none => (.flag false, r, [])
  | .lease name =>
    match r.makeLease name with
    | (some c, r, chores) => (.camera (some c), r, chores)
    | (none, r, chores) => (.unknownName, r, chores)
  | .release name =>
    match r.leases.get? name with
    | some l => (.done, { r with leases := r.leases.erase name }, l.released)
    | none => (.unknownName, r, [])
  | .probe c patience timeout =>
    match r.probe c patience timeout with
    | (.ok value, r, chores) => (.sample (value.map fun v => (c, v)), r, chores)
    | (.error o, r, chores) => (.brokenOff o, r, chores)

def step (r : Rig) (action : Action) : Answer × Rig :=
  let (answer, r, chores) := r.act action
  (answer, r.finish chores)

def run (r : Rig) (actions : List Action) : Rig := actions.foldl (fun r a => (r.step a).2) r

end Rig

end DayNight
