/-
The texts about the command line itself.
-/
import PartProgram.Command.Switch

namespace PartProgram.Command

/-- The name of the command. -/
def commandName : String := "cnc-gcode"

/-- The command line in short. -/
def usage : String :=
  "usage: cnc-gcode [-h] --job JOB [--config CONFIG] [--output OUTPUT]\n" ++
  "                 [--seed SEED] [--strict]\n" ++
  "                 [--log-level \x7bDEBUG,INFO,WARNING,ERROR\x7d]\n" ++
  "                 [--log-file LOG_FILE] [--log-json]\n"

/-- The command line explained. -/
def explanation : String :=
  usage ++ "\n" ++
  "Render a job file to a G-code program listing\n" ++
  "\n" ++
  "options:\n" ++
  "  -h, --help            show this help message and exit\n" ++
  "  --job JOB, -j JOB     Job file (YAML, schema job.v1)\n" ++
  "  --config CONFIG, -c CONFIG\n" ++
  "                        Program configuration file, used when the job has no\n" ++
  "                        program section\n" ++
  "  --output OUTPUT, -o OUTPUT\n" ++
  "                        Output file (stdout when omitted)\n" ++
  "  --seed SEED           Seed for generated program names (default: 0)\n" ++
  "  --strict              Reject unknown units/positioning and non-finite\n" ++
  "                        numbers\n" ++
  "  --log-level \x7bDEBUG,INFO,WARNING,ERROR\x7d\n" ++
  "                        Logging level (default: WARNING)\n" ++
  "  --log-file LOG_FILE   Also write log records to this file\n" ++
  "  --log-json            Write the log file as JSON lines\n"

/-- What is shown when a command line is refused. -/
def UsageError.shown (e : UsageError) : String := usage ++ commandName ++ ": error: " ++ e.message ++ "\n"

end PartProgram.Command
