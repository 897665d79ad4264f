/-
  CompilerFuzz.Campaign.Toolchain

  The command lines of the four steps. They meet in the artifacts: what the generator
  writes the compiler reads, and what the compiler emits the optimizer reads.
-/
import CompilerFuzz.Campaign.Tool
import CompilerFuzz.Settings.Basic

namespace CompilerFuzz.Campaign

open CompilerFuzz.Files

/-- The file that the arguments of a call name as output; the last one that is named. -/
def outputArgument? : List String → Option Path
  | flag :: path :: rest =>
    match outputArgument? (path :: rest) with
    | some last => some last
    | none => if flag = "-o" then some path else none
  | _ => none

end CompilerFuzz.Campaign

namespace CompilerFuzz.ToolchainSettings

open CompilerFuzz.Campaign CompilerFuzz.Text

/-- The generator, writing a fresh program over the source file. -/
def generate (t : ToolchainSettings) (a : Artifacts) : Invocation where
  step := .generate
  program := t.generator
  args := t.generatorArgs
  output := .file a.source

/-- What every call of the compiler starts with. -/
def compilerArgs (t : ToolchainSettings) (a : Artifacts) : List String :=
  a.source :: t.compilerFlags ++ t.includeDirs.map fun dir => "-I" ++ dir

/-- The compiler, building a binary at one level. -/
def compile (t : ToolchainSettings) (a : Artifacts) (level : UInt8) : Invocation where
  step := .compile
  program := t.compiler
  args := t.compilerArgs a ++ ["-O" ++ numeralText level.toNat, "-o", a.binary]
  output := .discard

/-- The compiler, writing unoptimized textual intermediate code. -/
def emitIr (t : ToolchainSettings) (a : Artifacts) : Invocation where
  step := .emitIr
  program := t.compiler
  args := t.compilerArgs a ++ ["-S", "-emit-llvm", "-o", a.ir]
  output := .discard

/-- The optimizer, running the normalization pass and then the named pass. -/
def optimize (t : ToolchainSettings) (a : Artifacts) (pass : String) : Invocation where
  step := .optimize
  program := t.optimizer
  args := ["-S", "-passes=" ++ t.normalizationPass ++ "," ++ pass, a.ir, "--disable-output"]
  output := .discard

end CompilerFuzz.ToolchainSettings
