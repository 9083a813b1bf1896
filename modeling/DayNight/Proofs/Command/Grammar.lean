import DayNight.Proofs.Controller.Step
import DayNight.Proofs.Text.Names

namespace DayNight.SwitchCommand

open Text

variable {mode text : String} {camera reason : Option String} {m : ControlMode} {c : Camera}
  {unknown : UnknownName} {command : SwitchCommand} {fault : CommandFault}

-- The reason is taken over as it is.
inductive Grammar (mode : String) : Option String → Option String → SwitchCommand → Prop
  | manual {text : String} {reason : Option String} {c : Camera} : Reads mode "manual" →
    Reads text c.name → Grammar mode (some text) reason ⟨.manual, some c, reason⟩
  | auto {reason : Option String} : Reads mode "auto" →
    Grammar mode none reason ⟨.auto, none, reason⟩

-- A camera is looked at only if the mode is known, and whether they go together only if both are.
inductive Refused (mode : String) : Option String → CommandFault → Prop
  | unknownMode {camera : Option String} {got : String} : Reads mode got →
    (∀ m : ControlMode, got ≠ m.name) → Refused mode camera (.unknown (.mode got))
  | unknownCamera {m : ControlMode} {text got : String} : Reads mode m.name → Reads text got →
    (∀ c : Camera, got ≠ c.name) → Refused mode (some text) (.unknown (.camera got))
  | cameraMissing : Reads mode "manual" → Refused mode none .cameraMissing
  | cameraInAuto {text : String} {c : Camera} : Reads mode "auto" → Reads text c.name →
    Refused mode (some text) (.cameraInAuto c)

section Parse

theorem parse_of_unknown_mode (h : ControlMode.parse mode = .error unknown) :
    parse mode camera reason = .error (.unknown unknown) := by
  rw [parse, h]
  rfl

theorem parse_of_unknown_camera (hm : ControlMode.parse mode = .ok m)
    (hc : Camera.parse text = .error unknown) :
    parse mode (some text) reason = .error (.unknown unknown) := by
  rw [parse, hm, Option.mapM_some, hc]
  rfl

theorem parse_of_no_camera (hm : ControlMode.parse mode = .ok m) :
    parse mode none reason =
      (validate ⟨m, none, reason⟩).map fun _ => ⟨m, none, reason⟩ := by
  rw [parse, hm]
  cases m <;> rfl

theorem parse_of_camera (hm : ControlMode.parse mode = .ok m) (hc : Camera.parse text = .ok c) :
    parse mode (some text) reason =
      (validate ⟨m, some c, reason⟩).map fun _ => ⟨m, some c, reason⟩ := by
  rw [parse, hm, Option.mapM_some, hc]
  cases m <;> rfl

theorem parse_of_grammar (h : Grammar mode camera reason command) :
    parse mode camera reason = .ok command := by
  cases h
  case manual hm hc =>
    have hm : ControlMode.parse mode = .ok .manual := ControlMode.parse_eq_iff.mpr (.known hm)
    exact parse_of_camera hm (Camera.parse_eq_iff.mpr (.known hc))
  case auto hm =>
    have hm : ControlMode.parse mode = .ok .auto := ControlMode.parse_eq_iff.mpr (.known hm)
    exact parse_of_no_camera hm

theorem parse_of_refused (h : Refused mode camera fault) :
    parse mode camera reason = .error fault := by
  cases h
  case unknownMode hm ha =>
    exact parse_of_unknown_mode (ControlMode.parse_eq_iff.mpr (.unknown hm ha))
  case unknownCamera hm hc ha =>
    exact parse_of_unknown_camera (ControlMode.parse_eq_iff.mpr (.known hm))
      (Camera.parse_eq_iff.mpr (.unknown hc ha))
  case cameraMissing hm =>
    have hm : ControlMode.parse mode = .ok .manual := ControlMode.parse_eq_iff.mpr (.known hm)
    exact parse_of_no_camera hm
  case cameraInAuto hm hc =>
    have hm : ControlMode.parse mode = .ok .auto := ControlMode.parse_eq_iff.mpr (.known hm)
    exact parse_of_camera hm (Camera.parse_eq_iff.mpr (.known hc))

-- There are no other texts.
theorem grammar_or_refused (mode : String) (camera reason : Option String) :
    (∃ command, Grammar mode camera reason command) ∨ (∃ fault, Refused mode camera fault) := by
  have hp := ControlMode.means_parse mode
  generalize ControlMode.parse mode = result at hp
  cases hp
  case unknown hm ha => exact .inr ⟨_, .unknownMode hm ha⟩
  case known m hm =>
    cases camera
    case none =>
      cases m
      case manual => exact .inr ⟨_, .cameraMissing hm⟩
      case auto   => exact .inl ⟨_, .auto hm⟩
    case some text =>
      have hp := Camera.means_parse text
      generalize Camera.parse text = result at hp
      cases hp
      case unknown hc ha => exact .inr ⟨_, .unknownCamera hm hc ha⟩
      case known hc =>
        cases m
        case manual => exact .inl ⟨_, .manual hm hc⟩
        case auto   => exact .inr ⟨_, .cameraInAuto hm hc⟩

theorem parse_eq_ok_iff :
    parse mode camera reason = .ok command ↔ Grammar mode camera reason command := by
  refine ⟨fun h => ?_, parse_of_grammar⟩
  obtain ⟨_, hg⟩ | ⟨_, hr⟩ := grammar_or_refused mode camera reason
  · cases h.symm.trans (parse_of_grammar hg)
    exact hg
  · cases h.symm.trans (parse_of_refused hr)

theorem parse_eq_error_iff :
    parse mode camera reason = .error fault ↔ Refused mode camera fault := by
  refine ⟨fun h => ?_, parse_of_refused⟩
  obtain ⟨_, hg⟩ | ⟨_, hr⟩ := grammar_or_refused mode camera reason
  · cases h.symm.trans (parse_of_grammar hg)
  · cases h.symm.trans (parse_of_refused hr)
    exact hr

end Parse

section Accept

variable {controller : Controller} {now : Moment}

theorem accepts_iff : (∃ transition, (controller.apply command now).1 = .ok transition) ↔
    command.validate = .ok () := by
  cases hv : command.validate
  case error => simp [Controller.apply_of_error hv]
  case ok =>
    obtain ⟨transition, _, ha, _⟩ := controller.apply_of_ok now hv
    exact iff_of_true ⟨transition, by rw [ha]⟩ rfl

-- Its own names spell a command that makes sense.
theorem grammar_of_validate (h : command.validate = .ok ()) :
    Grammar command.mode.name (command.camera.map Camera.name) command.reason command := by
  obtain ⟨mode, camera, reason⟩ := command
  have hm : Reads mode.name mode.name := by
    rw [reads_iff]
    cases mode <;> decide
  have hc : ∀ c : Camera, Reads c.name c.name := by
    intro c
    rw [reads_iff]
    cases c <;> decide
  cases mode <;> cases camera
  case auto.none     => exact .auto hm
  case auto.some c   => cases h
  case manual.none   => cases h
  case manual.some c => exact .manual hm (hc c)

theorem validate_of_grammar (h : Grammar mode camera reason command) :
    command.validate = .ok () := by
  cases h <;> rfl

end Accept

-- What is read are the commands that the controller accepts, in each state that it can come to.
theorem parse_by_grammar (mode : String) (camera reason : Option String) :
    (∀ command, parse mode camera reason = .ok command ↔ Grammar mode camera reason command) ∧
    (∀ fault, parse mode camera reason = .error fault ↔ Refused mode camera fault) ∧
    (∀ (config : Config.Switcher) (actions : List Controller.Action) (now : Moment) command,
      let c := (Controller.new config).after actions
      (∃ transition, (c.apply command now).1 = .ok transition) ↔
        ∃ mode camera reason, parse mode camera reason = .ok command) := by
  refine ⟨fun _ => parse_eq_ok_iff, fun _ => parse_eq_error_iff, fun _ _ _ command => ?_⟩
  refine accepts_iff.trans ⟨fun h => ?_, ?_⟩
  · exact ⟨_, _, _, parse_of_grammar (grammar_of_validate h)⟩
  · rintro ⟨_, _, _, h⟩
    exact validate_of_grammar (parse_eq_ok_iff.mp h)

-- Read from untidy texts, and accepted while a switch is under way.
theorem parse_by_grammar_amid_blanks :
    let command : SwitchCommand := ⟨.manual, some .night, some " Dusk "⟩
    let c := (Controller.new {}).after [.command ⟨.manual, some .night, none⟩ ⟨0⟩]
    c.pending.isSome ∧
    parse "\u3000MANUAL\n" (some " Night\u0085") (some " Dusk ") = .ok command ∧
    ∃ transition, (c.apply command ⟨5⟩).1 = .ok transition := by
  intro command c
  have ⟨hp, _, ha⟩ := parse_by_grammar "\u3000MANUAL\n" (some " Night\u0085") (some " Dusk ")
  have hm : Reads "\u3000MANUAL\n" "manual" := reads_iff.mpr (by decide)
  have hc : Reads " Night\u0085" "night" := reads_iff.mpr (by decide)
  have h := (hp command).mpr (.manual hm hc)
  exact ⟨by decide, h, (ha {} _ ⟨5⟩ command).mpr ⟨_, _, _, h⟩⟩

end DayNight.SwitchCommand
