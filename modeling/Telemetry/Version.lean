/-!
# Name and version

What the agent calls itself on its pages, in its log lines and on its command line.
-/

namespace Telemetry

/-- The version. -/
def version : String := "0.1.0"

/-- The title of the pages. -/
def title : String := "Metrics Agent " ++ version ++ "\n"

/-- The name of the program. -/
def programName : String := "metrics-agent"

end Telemetry
