/- source: domain/cli/shell-argument.ts
   digest: The instructions that show an argv, with the values that cannot be published withheld. -/

import Kratos.Cli.PublicText
import Kratos.Cli.ShellArgument
import Kratos.Foundation.JsonParser

set_option autoImplicit false

namespace Kratos.Cli

open Foundation.Text Foundation.JsonText

/-- `JSON.stringify(argv)`. -/
def argvText (argv : List JsString) : JsString :=
  stringify compact 0 (.array (argv.map .string))

def instructionLines (argv : List JsString) : List JsString :=
  let posix := renderPosixCommand argv
  [js "Apply argv: " ++ argvText argv, js "Apply command (POSIX): " ++ posix,
    js "Apply command (PowerShell): " ++ renderPowerShellCommand argv,
    js "Apply command: " ++ posix]

/-- What stands for a value that cannot be published; a flag ahead of it names it. -/
def placeholder (flag : Option JsString) : JsString :=
  match flag with
  | some flag =>
      if startsWith flag (js "--") then js "<the " ++ flag ++ js " value you passed>"
      else js "<value withheld>"
  | none => js "<value withheld>"

/-- The same argv with each unpublishable value replaced by what it stands for. -/
def withheldArgv (argv : List JsString) : List JsString :=
  argv.mapIdx fun index value =>
    if isPublishable value then value
    else placeholder (if index = 0 then none else argv[index - 1]?)

/-- Canonical shell-neutral authority followed by copyable shell displays. -/
def renderApplyInstructions (argv : List JsString) : List JsString :=
  let exact := instructionLines argv
  if exact.all isPublishable then exact else instructionLines (withheldArgv argv)

/-- What the first instruction parses to behind its label. -/
def shownArgv (lines : List JsString) : Option Json :=
  lines.head?.bind fun line => parse (line.drop (js "Apply argv: ").length)

theorem instructionLines_shown (argv : List JsString) :
    shownArgv (instructionLines argv) = some (.array (argv.map .string)) := by
  have formed : WellFormed (.array (argv.map .string)) := by
    rw [WellFormed]
    induction argv with
    | nil => trivial
    | cons value argv hyp => exact ⟨trivial, hyp⟩
  have parsed := @parse_stringify compact _ formed [] (by intro u member; cases member)
  rw [List.append_nil] at parsed
  rw [shownArgv, instructionLines, List.head?_cons, Option.bind_some, List.drop_left]
  exact parsed

end Kratos.Cli
