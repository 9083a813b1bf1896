import DayNight.Camera

namespace DayNight

structure SwitchCommand where
  mode : ControlMode
  camera : Option Camera
  reason : Option String
  deriving DecidableEq, Repr, Inhabited

inductive CommandFault
  | unknown (name : UnknownName)
  | cameraMissing
  | cameraInAuto (camera : Camera)
  deriving DecidableEq, Repr

def CommandFault.detail : CommandFault → String
  | unknown name => name.message
  | cameraMissing => "manual mode requires a camera"
  | cameraInAuto camera => "auto mode does not take a camera (got '" ++ camera.name ++ "')"

def CommandFault.messageFor (detail : String) : String :=
  "invalid switch command: " ++ detail

def CommandFault.message (f : CommandFault) : String :=
  messageFor f.detail

namespace SwitchCommand

def validate (c : SwitchCommand) : Except CommandFault Unit :=
  match c.mode, c.camera with
  | .manual, none => .error .cameraMissing
  | .auto, some camera => .error (.cameraInAuto camera)
  | _, _ => .ok ()

-- Reads the mode first and then the camera, and last checks that they go together.
def parse (mode : String) (camera reason : Option String) : Except CommandFault SwitchCommand := do
  let mode ← (ControlMode.parse mode).mapError .unknown
  let camera ← (camera.mapM Camera.parse).mapError .unknown
  let command : SwitchCommand := ⟨mode, camera, reason⟩
  command.validate
  return command

end SwitchCommand

end DayNight
