import DayNight.Channel.Error
import DayNight.Command
import DayNight.Config.Basic
import DayNight.Source

namespace DayNight

inductive PipelineError
  | source (e : SourceError)
  | channel (e : ChannelError)
  | config (e : ConfigFault)
  | command (e : CommandFault)
  | joinTimeout (component : String) (limit : Duration)
  | spawn (component reason : String)
  | alreadyRunning

def PipelineError.message : PipelineError → String
  | source e => e.message
  | channel e => e.message
  | config e => e.message
  | command e => e.message
  | joinTimeout component limit => component ++ " thread did not exit within " ++ limit.text
  | spawn component reason => "failed to spawn " ++ component ++ " thread: " ++ reason
  | alreadyRunning => "pipeline is already running"

end DayNight
