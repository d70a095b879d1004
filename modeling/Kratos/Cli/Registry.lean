/- source: domain/cli/commands.ts, domain/cli/retired.ts and the modules of the commands
   digest: Every registered command with its path, flags and arity. -/

import Kratos.Cli.Parse

set_option autoImplicit false

namespace Kratos.Cli

open Foundation.Text

def valueFlag (name : String) : FlagSpec := { name := js name, kind := .value }

def booleanFlag (name : String) : FlagSpec := { name := js name, kind := .boolean }

def rootFlag : FlagSpec := valueFlag "--root"

def correlationFlag : FlagSpec := valueFlag "--correlation-id"

def command (path : List String) (flags : List FlagSpec) (min max : Nat) : CommandSpec :=
  { path := path.map js, flags, min, max }

section Memory

def memoryListCommand : CommandSpec := command ["memory", "list"] [rootFlag] 0 0

def memoryCaptureCommand : CommandSpec := command ["memory", "capture"] [rootFlag] 1 1

def changeFlags : List FlagSpec :=
  [rootFlag, booleanFlag "--yes", valueFlag "--proposal-digest", valueFlag "--plan-digest",
    valueFlag "--plan-time"]

def memoryChangeCommand (path : List String) : CommandSpec := command path changeFlags 1 1

def memoryPromoteCommand : CommandSpec := memoryChangeCommand ["memory", "promote"]
def memoryMergeCommand : CommandSpec := memoryChangeCommand ["memory", "merge"]
def memoryArchiveCommand : CommandSpec := memoryChangeCommand ["memory", "archive"]
def memoryReinforceCommand : CommandSpec := memoryChangeCommand ["memory", "reinforce"]

def memoryCurateCommand : CommandSpec :=
  command ["memory", "curate"]
    [rootFlag, valueFlag "--as-of", booleanFlag "--yes", valueFlag "--plan-digest",
      valueFlag "--approval-digest", valueFlag "--plan-time"] 0 1

end Memory

section Migration

def migrateBrainCommand : CommandSpec :=
  command ["migrate", "brain"] [rootFlag, valueFlag "--source-contract", booleanFlag "--yes"] 0 0

def migrateConfigCommand : CommandSpec :=
  command ["migrate", "config"]
    [rootFlag, valueFlag "--answers", booleanFlag "--yes", valueFlag "--plan-digest",
      valueFlag "--plan-time"] 0 0

def migrateMemoryCommand : CommandSpec :=
  command ["migrate", "memory"]
    [rootFlag, booleanFlag "--yes", valueFlag "--proposal-digest", valueFlag "--plan-digest",
      valueFlag "--plan-time"] 1 1

def migrateRollbackCommand : CommandSpec := command ["migrate", "rollback"] [rootFlag] 1 1

end Migration

section Workflow

def sharedFlags : List FlagSpec :=
  [correlationFlag, valueFlag "--host", valueFlag "--model", rootFlag]

def startCommand : CommandSpec := command ["start"] (sharedFlags ++ [valueFlag "--run-id"]) 0 0

def continueCommand : CommandSpec :=
  command ["continue"]
    (sharedFlags ++
      [valueFlag "--artifact", booleanFlag "--complete", valueFlag "--evidence",
        valueFlag "--expected-revision", valueFlag "--gate-failure", booleanFlag "--reject"]) 0 0

def doneCommand : CommandSpec :=
  command ["done"]
    (sharedFlags ++
      [valueFlag "--artifact", valueFlag "--evidence", valueFlag "--expected-revision"]) 0 0

def agentRecordCommand : CommandSpec :=
  command ["agent", "record"] [correlationFlag, valueFlag "--host", valueFlag "--model", rootFlag]
    1 1

def approveCommand : CommandSpec :=
  command ["approve"]
    [valueFlag "--approver", correlationFlag, valueFlag "--expires-at", valueFlag "--observation",
      booleanFlag "--reject", rootFlag] 1 1

def evidenceRecordCommand : CommandSpec :=
  command ["evidence", "record"]
    [valueFlag "--classification", correlationFlag, valueFlag "--kind", valueFlag "--redaction",
      rootFlag] 1 1

def gapsRecordCommand : CommandSpec := command ["gaps", "record"] [correlationFlag, rootFlag] 1 1

def gapsResolveCommand : CommandSpec :=
  command ["gaps", "resolve"]
    [correlationFlag, valueFlag "--decided-by", valueFlag "--decision",
      booleanFlag "--document-changed", valueFlag "--observation", rootFlag] 1 1

def gapsWaiveCommand : CommandSpec :=
  command ["gaps", "waive"]
    [valueFlag "--acknowledged-by", correlationFlag, valueFlag "--observation", rootFlag] 1 1

def gatesRecordCommand : CommandSpec :=
  command ["gates", "record"]
    [correlationFlag, valueFlag "--partition", valueFlag "--partition-approval", rootFlag,
      valueFlag "--stop-loss", valueFlag "--tokens-used"] 0 0

def scopeRecordCommand : CommandSpec := command ["scope", "record"] [rootFlag] 0 0

def guardWriteCommand : CommandSpec := command ["guard", "write"] [rootFlag] 0 0

def unlockStopLossCommand : CommandSpec :=
  command ["unlock", "stop-loss"] [valueFlag "--run", rootFlag] 0 0

def repairResolveCommand : CommandSpec :=
  command ["repair", "resolve"]
    [correlationFlag, valueFlag "--next-run", valueFlag "--observation", valueFlag "--resolved-by",
      rootFlag, valueFlag "--run"] 1 1

def narrateCommand : CommandSpec :=
  command ["narrate"] [valueFlag "--as-of", booleanFlag "--json", rootFlag, valueFlag "--run-id"]
    0 0

end Workflow

section Project

def helpCommand : CommandSpec := command ["help"] [] 0 0
def versionCommand : CommandSpec := command ["version"] [] 0 0
def handshakeCommand : CommandSpec := command ["handshake"] [] 0 0

def adaptersCommand : CommandSpec := command ["adapters"] [] 0 1

def initCommand : CommandSpec :=
  command ["init"]
    [valueFlag "--answers", booleanFlag "--detect-root", booleanFlag "--force", valueFlag "--host",
      booleanFlag "--merge", rootFlag, booleanFlag "--worktree-local"] 0 0

def hookCommand : CommandSpec := command ["hook"] [valueFlag "--host", rootFlag] 0 0

def objectiveCommand : CommandSpec :=
  command ["objective"] [booleanFlag "--replace", valueFlag "--token-ceiling", rootFlag] 0 1

def profileDeriveCommand : CommandSpec :=
  command ["profile", "derive"]
    [booleanFlag "--detect-root", rootFlag, booleanFlag "--worktree-local"] 0 0

end Project

section Reports

/-- The report commands, which read the active run and take only a root. -/
def observedCommand (name : String) : CommandSpec := command [name] [rootFlag] 0 0

def budgetsCommand : CommandSpec := observedCommand "budgets"
def doctorCommand : CommandSpec := observedCommand "doctor"
def handoffCommand : CommandSpec := observedCommand "handoff"
def statsCommand : CommandSpec := observedCommand "stats"
def statusCommand : CommandSpec := observedCommand "status"

def auditCommand : CommandSpec := command ["audit"] [rootFlag] 0 0

def explainCommand : CommandSpec := command ["explain"] [] 1 1

def metricsRefreshCommand : CommandSpec := command ["metrics", "refresh"] [rootFlag] 0 0

def repairCommand : CommandSpec :=
  command ["repair"] [rootFlag, booleanFlag "--apply", valueFlag "--authorization"] 0 0

def evidenceBundleCommand : CommandSpec :=
  command ["evidence", "bundle"] [rootFlag, valueFlag "--output"] 0 0

def dashboardCommand : CommandSpec := command ["dashboard"] [rootFlag, valueFlag "--output"] 0 0

end Reports

section Retired

/-- `Number.MAX_SAFE_INTEGER`: a retired command tolerates whatever operands its phase took. -/
def anyOperands : Nat := 2 ^ 53 - 1

def retiredCommand (name : String) : CommandSpec := command [name] [] 0 anyOperands

def retiredCommands : List String :=
  ["auto", "code", "eval", "next", "prd", "review", "run", "spec"]

end Retired

/-- `DEFAULT_REGISTRY`. -/
def defaultRegistry : CommandRegistry :=
  [adaptersCommand, agentRecordCommand, approveCommand, auditCommand, budgetsCommand,
    continueCommand, dashboardCommand, doctorCommand, doneCommand, evidenceBundleCommand,
    evidenceRecordCommand, explainCommand, gapsRecordCommand, gapsResolveCommand,
    gapsWaiveCommand, guardWriteCommand, gatesRecordCommand, handoffCommand, handshakeCommand,
    helpCommand, initCommand, hookCommand, migrateBrainCommand, migrateConfigCommand,
    migrateMemoryCommand, migrateRollbackCommand, metricsRefreshCommand, memoryCaptureCommand,
    memoryCurateCommand, memoryListCommand, memoryPromoteCommand, memoryReinforceCommand,
    memoryMergeCommand, memoryArchiveCommand, narrateCommand, objectiveCommand,
    profileDeriveCommand, repairCommand, repairResolveCommand, startCommand, statsCommand,
    statusCommand, scopeRecordCommand, unlockStopLossCommand, versionCommand] ++
  retiredCommands.map retiredCommand

theorem defaultRegistry_depth :
    (defaultRegistry.map fun spec => spec.path.length).foldl max 0 = 2 := by
  decide +kernel

theorem defaultRegistry_names : (defaultRegistry.map fun spec => spaced spec.path).Nodup := by
  decide +kernel

end Kratos.Cli
