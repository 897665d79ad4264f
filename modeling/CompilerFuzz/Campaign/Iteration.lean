/-
  CompilerFuzz.Campaign.Iteration

  One iteration: a fresh program is generated, then pushed through the steps of the mode.
  A failing generator is called again while its policy has attempts left; any other
  failure ends the iteration at once.
-/
import CompilerFuzz.Campaign.Environment
import CompilerFuzz.Campaign.Toolchain

namespace CompilerFuzz.Campaign

/-- What is to be run: the tools, the transient files, the plan. -/
structure Job where
  toolchain : ToolchainSettings
  artifacts : Artifacts
  plan : Plan

/-- How a step of an iteration went: its result, the failures of the generator in it, and
    the world after it. -/
structure Stage (α : Type) where
  result : Except CampaignError α
  failures : Nat
  world : World

/-- What a policy makes of a generator that failed for the last time. -/
def Policy.giveUp (policy : Policy) (o : Outcome) : Except CampaignError Bool :=
  match policy with
  | .skip => .ok false
  | .abort | .retry _ => .error o.error

/-- Calls the generator until it succeeds, at most `extra` times after the first. The result
    tells whether there is a program. -/
def generateWithin (env : Environment) (job : Job) : (extra failures : Nat) → World → Stage Bool
  | extra, failures, w =>
    match invoke env (job.toolchain.generate job.artifacts) w with
    -- a generator that cannot be started is no failed generator: no policy absorbs it
    | (.error e, w) => ⟨.error e, failures, w⟩
    | (.ok o, w) =>
      if o.success then ⟨.ok true, failures, w⟩
      else
        match extra with
        | 0 => ⟨job.plan.policy.giveUp o, failures + 1, w⟩
        | extra + 1 => generateWithin env job extra (failures + 1) w

/-- The generator step. -/
def generate (env : Environment) (job : Job) (w : World) : Stage Bool :=
  generateWithin env job (job.plan.policy.limit - 1) 0 w

/-- Calls a tool that must succeed. -/
def require (env : Environment) (call : Invocation) (w : World) : Except CampaignError Unit × World :=
  match invoke env call w with
  | (.error e, w) => (.error e, w)
  | (.ok o, w) => (if o.success then .ok () else .error o.error, w)

/-- The steps that exercise the toolchain. -/
def exercise (env : Environment) (job : Job) (w : World) : Except CampaignError Unit × World :=
  match job.plan.mode with
  | .pipeline level => require env (job.toolchain.compile job.artifacts level) w
  | .singlePass name =>
    match require env (job.toolchain.emitIr job.artifacts) w with
    -- without intermediate code there is nothing to optimize
    | (.error e, w) => (.error e, w)
    | (.ok (), w) => require env (job.toolchain.optimize job.artifacts name) w

/-- One iteration. The result tells whether a program was exercised, or none was there. -/
def iterate (env : Environment) (job : Job) (w : World) : Stage Bool :=
  let g := generate env job w
  match g.result with
  | .error e => ⟨.error e, g.failures, g.world⟩
  -- a skipped iteration is no error, but nothing was executed either
  | .ok false => ⟨.ok false, g.failures, g.world⟩
  | .ok true =>
    match exercise env job g.world with
    | (.error e, w) => ⟨.error e, g.failures, w⟩
    | (.ok (), w) => ⟨.ok true, g.failures, w⟩

end CompilerFuzz.Campaign
