/-
  CompilerFuzz.Campaign.Environment

  The world around a campaign, as what it answers: how a called tool behaves, what the
  clock shows, whether a stop is requested. Every answer depends on the history alone
  (a tool's also on its files), so two campaigns with one history get one answer.
-/
import CompilerFuzz.Campaign.History

namespace CompilerFuzz.Campaign

open CompilerFuzz.Files CompilerFuzz.Text

/-- How the system answers the request to run a program. -/
inductive Response
  | cannotStart (cause : Cause)
  /-- The program ran; `effect` is what it did to the files, apart from its standard
      output. -/
  | ran (exit : Exit) (effect : Tree → Tree)

/-- What the world answers. -/
structure Environment where
  respond : History → Tree → Invocation → Response
  /-- The time since the campaign started. -/
  elapsed : History → Span
  /-- The time since the current iteration started. -/
  latency : History → Span
  /-- Is a stop requested? -/
  stop : History → Bool

/-- Can the system take the program name and the arguments at all? -/
def Invocation.hasNul (call : Invocation) : Bool :=
  (call.program :: call.args).any fun s => '\x00' ∈ s.toList

/-- Empties the file for the output of a call. -/
def openOutput (call : Invocation) (files : Tree) : Except (Path × Cause) Tree :=
  match call.output with
  | .capture | .discard => .ok files
  | .file path =>
    match files.write path [] with
    | .ok files => .ok files
    | .error cause => .error (path, cause)

/-- Puts the output of a call where it goes. -/
def deliver (call : Invocation) (stdout : Bytes) (files : Tree) : Tree :=
  match call.output with
  | .capture | .discard => files
  | .file path =>
    match files.write path stdout with
    | .ok files => files
    -- does not happen, as the file was opened before the tool was started
    | .error _ => files

/-- The system's answer to a call. -/
def Environment.answer (env : Environment) (call : Invocation) (w : World) (files : Tree) :
    Response :=
  if call.hasNul then .cannotStart .nulInArgument else env.respond w.history files call

/-- Calls a tool and waits for its end. -/
def invoke (env : Environment) (call : Invocation) (w : World) :
    Except CampaignError Outcome × World :=
  match openOutput call w.files with
  | .error (path, cause) => (.error (.io path cause), w.log (.call call w.files (.noOutput cause)))
  | .ok files =>
    match env.answer call w files with
    -- the file for the output is empty by now
    | .cannotStart cause =>
      (.error (.spawn call.step call.program cause),
        (w.withFiles files).log (.call call files (.notStarted cause)))
    | .ran exit effect =>
      (.ok (Outcome.ofExit call exit),
        (w.withFiles (effect (deliver call exit.stdout files))).log (.call call files (.ended exit)))

end CompilerFuzz.Campaign
