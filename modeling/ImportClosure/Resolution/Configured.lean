import ImportClosure.Configuration.Basic
import ImportClosure.Extractor.Registry
import ImportClosure.Resolution.Report
import ImportClosure.Storage.Disk
/-!
Runs by configuration.

A configuration and the extractors at hand settle everything about a run but the storage and the
entrypoint.
-/

namespace ImportClosure

namespace Registry

/-- The extractors of the grammars that there are. -/
def standardExtractors : List Extractor :=
  [Extractor.grammar .javascript, Extractor.grammar .typescript]

end Registry

namespace Config

/-- The settings of a run. -/
def settings (c : Config) (extractors : List Extractor) : Settings where
  allowed := c.allowedModules.toList
  extract := fun content v => (Registry.ofList extractors).extract content v.name
  maxFiles := c.maxFiles

/-- A run with these extractors, and what is reported about it. -/
def resolve (c : Config) (extractors : List Extractor) (r : Reader) (entrypoint : Text) :
    Resolution × List LogRecord :=
  let run := ImportClosure.resolve (c.settings extractors) r entrypoint
  let loading (v : Variant) : List LogRecord := (Registry.ofList extractors).useLog v.name
  (run, Registry.empty.registerAllLog extractors ++ run.log r loading)

/-- The disk as a storage that is read as far as the configuration allows. -/
def diskReader (c : Config) (d : Disk) : Reader := d.reader (some c.maxFileSize)

end Config

end ImportClosure
