import ImportClosure.Proofs.DiskRun
import ImportClosure.Proofs.SharedNames
import ImportClosure.ToolServer.Basic
/-!
Calls of the server, one after the other.

A call of the tool comes to the answer about the entrypoint and the packages that its arguments give
(`callWith_resolveTool`).

A server lives through many calls, each with packages of its own, and its configuration is an object
in memory all the time (`serve`). A call with packages makes a configuration for itself and adds to
that one, so the object of the server stands for what it stood for (`value_serve`), and each answer
is the one that a server gives which is started for this call alone (`serveAll_eq`). The files on
the disk may be different ones at each call.
-/

namespace ImportClosure

namespace ToolServer

variable {c : Config} {extractors : List Extractor} {d : Disk} {entrypoint : Text}
variable {packages : List Text}

/-- The answer of a server about an entrypoint. -/
def answer (server : ToolServer) (entrypoint : Text) (packages : List Text) :
    Except Failure Json :=
  (server.resolve entrypoint packages).map (resolution entrypoint)

/-- What an outcome is answered with. -/
def answerOf (entrypoint : Text) : Except Failure (OrderedMap Text Text) → Except Failure Json
  | .ok files => .ok (resolution entrypoint (.ok files))
  | .error (.reported e) => .ok (resolution entrypoint (.error e))
  | .error why => .error why

/-- A server that has no files of its own answers with what a run over the disk comes to. -/
theorem answer_onDisk (c : Config) (extractors : List Extractor) (d : Disk) (entrypoint : Text)
    (packages : List Text) :
    (onDisk c extractors d).answer entrypoint packages = answerOf entrypoint
      ((c.withAllowedPackages packages).resolveOnDisk extractors d entrypoint) := by
  have hrun : ((onDisk c extractors d).config.withAllowedPackages packages).resolve
      (onDisk c extractors d).extractors (onDisk c extractors d).reader entrypoint
      = (c.withAllowedPackages packages).resolve extractors
        ((c.withAllowedPackages packages).diskReader d) entrypoint := rfl
  unfold answer resolve Config.resolveOnDisk
  dsimp only
  rw [hrun]
  generalize (Config.resolve _ _ _ _).1.outcome = outcome
  rcases outcome with (_ | _ | _) | _ <;> rfl

/-! ## Tools -/

/-- **Calls of the tool.** Whichever arguments are accepted, a call has the answer of the server to
the entrypoint and the packages that it gives, and it fails exactly if it has none: since its
arguments are refused, or the run breaks off. An entrypoint whose files have an error is answered,
and the call does not fail. -/
theorem callWith_resolveTool (read : ArgumentReader) (server : ToolServer) (arguments : Json) :
    (server.callWith read resolveTool arguments).result
        = (read arguments).bind (fun a => (server.answer a.1 a.2).toOption)
      ∧ ((server.callWith read resolveTool arguments).isError = true
        ↔ (server.callWith read resolveTool arguments).result = none) := by
  unfold callWith
  rw [if_pos rfl]
  unfold callResolve answer
  cases read arguments with
  | none => exact ⟨rfl, iff_of_true rfl rfl⟩
  | some a =>
    obtain ⟨entrypoint, packages⟩ := a
    dsimp only [Option.bind_some]
    cases server.resolve entrypoint packages with
    | error why => exact ⟨rfl, iff_of_true rfl rfl⟩
    | ok outcome => exact ⟨rfl, iff_of_false Bool.false_ne_true nofun⟩

/-! ## Sessions -/

/-- A call: the disk at this time, the entrypoint and the packages. -/
structure Call where
  /-- The disk. -/
  disk : Disk
  /-- The entrypoint. -/
  entrypoint : Text
  /-- The further packages. -/
  packages : List Text

/-- Serves a call: the memory afterwards, and the answer. Without packages the configuration is the
server's own. -/
def serve (extractors : List Extractor) (o : ConfigObject) (m : NameLists) (call : Call) :
    NameLists × Except Failure Json :=
  let used := if call.packages = [] then (m, o) else o.withAllowedPackages m call.packages
  (used.1, answerOf call.entrypoint
    ((used.2.value used.1).resolveOnDisk extractors call.disk call.entrypoint))

/-- Serves calls one after the other. -/
def serveAll (extractors : List Extractor) (o : ConfigObject) :
    NameLists → List Call → List (Except Failure Json)
  | _, [] => []
  | m, call :: calls =>
    (serve extractors o m call).2 :: serveAll extractors o (serve extractors o m call).1 calls

variable {o : ConfigObject} {m : NameLists} {call : Call}

/-- A call leaves the configuration of the server as it was. -/
theorem value_serve (extractors : List Extractor) (call : Call) (h : o.IsIn m) :
    o.IsIn (serve extractors o m call).1 ∧ o.value (serve extractors o m call).1 = o.value m := by
  unfold serve
  dsimp only
  split_ifs
  · exact ⟨h, rfl⟩
  · exact ⟨h.withAllowedPackages, ConfigObject.value_of_isIn h⟩

/-- A call is answered as by a server that is new. -/
theorem answer_serve :
    (serve extractors o m call).2
      = (onDisk (o.value m) extractors call.disk).answer call.entrypoint call.packages := by
  rw [answer_onDisk]
  unfold serve
  dsimp only
  split_ifs with hnone
  · rw [hnone]
    rfl
  · rw [ConfigObject.value_withAllowedPackages]

/-- **Sessions.** Every call is answered as by a server that is started for this call alone, with
the configuration that the server was started with. -/
theorem serveAll_eq (h : o.IsIn m) (calls : List Call) :
    serveAll extractors o m calls = calls.map fun call =>
      (onDisk (o.value m) extractors call.disk).answer call.entrypoint call.packages := by
  -- the memory grows from call to call, but the object of the server stays what it is
  induction calls generalizing m with
  | nil => rfl
  | cons call calls ih =>
    obtain ⟨hin, hvalue⟩ := value_serve extractors call h
    unfold serveAll
    rw [answer_serve, ih hin, hvalue, List.map_cons]

end ToolServer

end ImportClosure
