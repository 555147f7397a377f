import TemplateDocs.Cli.Run

/-!
# Runs that come to work

A run whose arguments are read, whose options are right and whose files are found
does its command on them.
-/

namespace TemplateDocs

namespace Cli

/-- What the arguments of a run come to. -/
structure Task where
  command : Command
  color : Bool
  filter : LogFilter
  root : Text
  options : Options
  paths : List Text

/-- The arguments are read, and neither the options nor the files are at fault. -/
structure Resolves (environment : Environment) (arguments : List Text) (invocation : Invocation)
    (task : Task) : Prop where
  parse : Invocation.parse arguments = .ok invocation
  command : invocation.command = some task.command
  color : invocation.color environment = task.color
  filter : LogFilter.choose environment.logSetting invocation.verbose = .ok task.filter
  root : invocation.root environment = task.root
  options : invocation.options environment = .ok task.options
  paths : resolveFiles environment.disk task.root task.command.files = .ok task.paths

theorem Resolves.run_eq {environment : Environment} {arguments : List Text}
    {invocation : Invocation} {task : Task}
    (h : Resolves environment arguments invocation task) (console : Console) :
    console.run environment arguments =
      (console.commandOutput task.color task.filter
        (environment.disk.document task.options task.paths) task.command).behind
          (console.log task.color task.filter [optionsEntry task.options task.root]) := by
  simp only [Console.run, h.parse, h.filter, h.command, Console.runCommand, h.color, h.root,
    h.options, h.paths]

end Cli

end TemplateDocs
