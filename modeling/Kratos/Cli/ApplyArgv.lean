/- source: domain/cli/memory.ts, domain/cli/migration.ts
   digest: The apply argv each memory and migration preview prints. -/

import Kratos.Cli.Registry

set_option autoImplicit false

namespace Kratos.Cli

open Foundation.Text Foundation.Collections

def dashed (value : JsString) : Bool := startsWith value (js "-")

/-- What a preview binds its apply to: SHA-256 digests in hexadecimal and an ISO instant, none
of which begins with a dash. -/
structure Authority where
  proposalDigest : JsString
  planDigest : JsString
  approvalDigest : JsString
  planTime : JsString
  proposalDigest_plain : dashed proposalDigest = false
  planDigest_plain : dashed planDigest = false
  approvalDigest_plain : dashed approvalDigest = false
  planTime_plain : dashed planTime = false

def textFlag (invocation : Invocation) (name : String) : Option JsString :=
  match mapGet invocation.flags (js name) with
  | some (.given value) => some value
  | _ => none

/-- `String(invocation.flags.get(name))`. -/
def stringFlag (invocation : Invocation) (name : String) : JsString :=
  match mapGet invocation.flags (js name) with
  | some (.given value) => value
  | some .present => js "true"
  | none => js "undefined"

/-- A flag repeated with its value, where it holds a text. -/
def repeated (invocation : Invocation) (name : String) : List JsString :=
  match textFlag invocation name with
  | some value => [js name, value]
  | none => []

def memoryApplyArgv (invocation : Invocation) (proposalDigest planDigest planTime : JsString) :
    List JsString :=
  js "kratos" :: invocation.command.path ++ repeated invocation "--root" ++
    [invocation.positionals.headD (js "<proposal>"), js "--yes", js "--proposal-digest",
      proposalDigest, js "--plan-digest", planDigest, js "--plan-time", planTime]

def memoryMigrationApplyArgv (invocation : Invocation)
    (proposalDigest planDigest planTime : JsString) : List JsString :=
  [js "kratos", js "migrate", js "memory"] ++ repeated invocation "--root" ++
    [invocation.positionals.headD (js "<mapping>"), js "--yes", js "--proposal-digest",
      proposalDigest, js "--plan-digest", planDigest, js "--plan-time", planTime]

def memoryCurationApplyArgv (invocation : Invocation)
    (approvalDigest planDigest planTime : JsString) : List JsString :=
  [js "kratos", js "memory", js "curate", js "--as-of", stringFlag invocation "--as-of",
      invocation.positionals.headD []] ++
    repeated invocation "--root" ++
    [js "--yes", js "--plan-digest", planDigest, js "--approval-digest", approvalDigest,
      js "--plan-time", planTime]

def configMigrationApplyArgv (invocation : Invocation) (planDigest planTime : JsString) :
    List JsString :=
  [js "kratos", js "migrate", js "config"] ++ repeated invocation "--root" ++
    repeated invocation "--answers" ++
    [js "--yes", js "--plan-digest", planDigest, js "--plan-time", planTime]

/-- The commands that change curated memory by one reviewed proposal. -/
def changeCommands : List CommandSpec :=
  [memoryPromoteCommand, memoryMergeCommand, memoryArchiveCommand, memoryReinforceCommand]

/-- The apply argv a preview prints: curation prints one only for an as-of date and an approval
file, and a command that is already authorized prints none. -/
def previewApplyArgv (invocation : Invocation) (authority : Authority) : Option (List JsString) :=
  if mapGet invocation.flags (js "--yes") = some .present then none
  else if invocation.command ∈ changeCommands then
    some (memoryApplyArgv invocation authority.proposalDigest authority.planDigest
      authority.planTime)
  else if invocation.command = memoryCurateCommand then
    if (textFlag invocation "--as-of").isNone ∨ invocation.positionals = [] then none
    else
      some (memoryCurationApplyArgv invocation authority.approvalDigest authority.planDigest
        authority.planTime)
  else if invocation.command = migrateMemoryCommand then
    some (memoryMigrationApplyArgv invocation authority.proposalDigest authority.planDigest
      authority.planTime)
  else if invocation.command = migrateConfigCommand then
    some (configMigrationApplyArgv invocation authority.planDigest authority.planTime)
  else none

/-- The digests and the instant a command's apply is bound to, under their flags. -/
def bindings (command : CommandSpec) (authority : Authority) : List (JsString × JsString) :=
  let proposal := (js "--proposal-digest", authority.proposalDigest)
  let plan := (js "--plan-digest", authority.planDigest)
  let approval := (js "--approval-digest", authority.approvalDigest)
  let time := (js "--plan-time", authority.planTime)
  if command = memoryCurateCommand then [plan, approval, time]
  else if command = migrateConfigCommand then [plan, time]
  else [proposal, plan, time]

/-- The flags that authorize a command's apply. -/
def authorization (command : CommandSpec) (authority : Authority) :
    List (JsString × FlagValue) :=
  (js "--yes", .present) ::
    (bindings command authority).map fun binding => (binding.1, .given binding.2)

theorem bindings_plain (command : CommandSpec) (authority : Authority) :
    ∀ binding ∈ bindings command authority, dashed binding.2 = false := by
  have proposal := authority.proposalDigest_plain
  have plan := authority.planDigest_plain
  have approval := authority.approvalDigest_plain
  have time := authority.planTime_plain
  unfold bindings
  dsimp only
  split_ifs <;> simp [proposal, plan, approval, time]

end Kratos.Cli
