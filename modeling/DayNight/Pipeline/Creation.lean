import DayNight.Channel.Mounted
import DayNight.Pipeline.State

namespace DayNight.Pipeline

structure Created where
  state : State
  frameFile : Option String
  detectionFile : Option String

-- Makes a pipeline. The configuration is checked first, then the channels are made.
def create (jpeg : JpegDecoder) (config : Config) (shelf : Shelf) :
    Except PipelineError Created × Shelf :=
  match config.validate with
  | .error fault => (.error (.config fault), shelf)
  | .ok () =>
    match Mounted.frames config.channels shelf with
    | (.error e, shelf) => (.error (.channel e), shelf)
    | (.ok frames, shelf) =>
      match Mounted.detections config.channels shelf with
      | (.error e, shelf) => (.error (.channel e), shelf)
      | (.ok detections, shelf) =>
        let state := State.new jpeg config frames.channel detections.channel
        (.ok ⟨state, frames.file, detections.file⟩, shelf)

end DayNight.Pipeline
