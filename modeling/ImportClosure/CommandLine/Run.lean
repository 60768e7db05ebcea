import ImportClosure.CommandLine.Execution
import ImportClosure.Yaml.Load
/-!
The program as it runs.

What the program does is the same for every loader; when it runs, files are loaded by `Yaml.loader`.
-/

namespace ImportClosure

/-- The configuration in a file, as it is loaded when the program runs. -/
def Config.load (d : Disk) (path : Option Text) :
    Except ConfigFailure (Config × List LogRecord) :=
  loadWith Yaml.loader d path

/-- Runs the program on the words of a command line. -/
def CommandLine.run (extractors : List Extractor) (words : List Text) (now : Moment)
    (disk : Disk) : Outcome :=
  execute Yaml.loader extractors words now disk

end ImportClosure
