/- source: domain/cli/shell-argument.ts
   digest: Command displays for POSIX shells and PowerShell, and when they spell their argv. -/

import Kratos.Foundation.ShellWords

set_option autoImplicit false

namespace Kratos.Cli

open Foundation.Text Foundation.ShellWords

/-- The class of `SAFE_SHELL_ARGUMENT`. -/
def safeUnit (u : CodeUnit) : Bool := isAlnum u || (js "_./:@=-").contains u

/-- Render one literal POSIX shell argument without evaluating its contents. -/
def shellArgument (value : JsString) : JsString :=
  if !value.isEmpty && value.all safeUnit then value
  else unit '\'' :: posixEscape value ++ [unit '\'']

/-- Render exact argv for a POSIX shell without evaluating argument contents. -/
def renderPosixCommand (argv : List JsString) : JsString :=
  [unit ' '].intercalate (argv.map shellArgument)

/-- Render exact argv for PowerShell using literal single-quoted arguments. -/
def renderPowerShellCommand (argv : List JsString) : JsString :=
  js "& " ++ [unit ' '].intercalate (argv.map powershellQuote)

/-- The words of PowerShell text that begins with the call operator. -/
def powershellCall (text : JsString) : Option (List JsString) :=
  match text with
  | u :: rest => if u = unit '&' then powershellLiterals none rest else none
  | [] => none

theorem safeUnit_literal : Literal safeUnit := by
  unfold Literal
  decide

theorem shellArgument_read (value tail : JsString) :
    posixWords safeUnit (.outside none) (shellArgument value ++ tail) =
      posixWords safeUnit (.outside (some value)) tail := by
  unfold shellArgument
  by_cases safe : (!value.isEmpty && value.all safeUnit) = true
  · rw [if_pos safe]
    rw [Bool.and_eq_true] at safe
    have some : value ≠ [] := by simpa using safe.1
    exact posix_word safeUnit_literal some safe.2 tail
  · rw [if_neg safe, List.append_assoc, List.singleton_append]
    exact posix_quoted value tail

theorem posix_display (argv : List JsString) :
    posixWords safeUnit (.outside none) (renderPosixCommand argv) = some argv :=
  posix_joined (fun value tail _ => shellArgument_read value tail) argv

/-- PowerShell reads the display back as the argv exactly when no value holds a typographic
quote. -/
theorem powershell_display (argv : List JsString) :
    powershellCall (renderPowerShellCommand argv) = some argv ↔
      ∀ value ∈ argv, value.any typographic = false := by
  have called : powershellCall (renderPowerShellCommand argv) =
      powershellLiterals none ([unit ' '].intercalate (argv.map powershellQuote)) := by
    have operator : js "& " = [unit '&', unit ' '] := by decide
    rw [renderPowerShellCommand, operator, List.cons_append, List.singleton_append,
      powershellCall, if_pos rfl, powershellLiterals, if_pos rfl]
  rw [called]
  exact powershell_joined argv

example : renderPosixCommand [js "kratos", js "a b", js "it's", js ""] =
    js "kratos 'a b' 'it'\\''s' ''" := by
  decide

end Kratos.Cli
