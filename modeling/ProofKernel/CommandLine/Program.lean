import ProofKernel.CommandLine.Spec

/-!
# The command line of the kernel

The commands of the program, with their flags and their explanations.
-/

set_option autoImplicit false
namespace ProofKernel
namespace CommandLine
namespace Program

/-! ## Flags -/

/-- A switch. -/
def switch (name : String) (short : Option Char) (usage : String) : Flag :=
  ⟨name, short, .switch, usage, ""⟩

/-- The flags that hold for every command. -/
def shared : List Flag :=
  [⟨"config", some 'c', .text, "Config file (default: $KERNEL_CONFIG or kernel.yaml)", ""⟩,
    switch "verbose" (some 'v') "Enable debug logging",
    switch "no-prelude" none "Start without the Int/Float/Text prelude"]

/-- The flag that names a journal. -/
def journalFlag : Flag :=
  ⟨"db", none, .text, "Session journal database (default: store.path)", ""⟩

/-! ## Commands -/

def repl : Spec where
  use := "repl"
  short := "Start the interactive loop"
  long := "Reads Vernacular commands from standard input, one per period-terminated\n" ++
    "entry, and prints each result. With a journal (--db or store.path) the session\n" ++
    "is persisted and can be resumed later with --resume."
  flags := [journalFlag,
    ⟨"resume", none, .text, "Resume the journaled session with this id", ""⟩]
  arity := .none
  action := some .converse
  children := []

def check : Spec where
  use := "check FILE..."
  short := "Check script files as one unit"
  long := "Checks the declarations of all files together, independent ones in\n" ++
    "parallel, then runs their Check and Eval commands in file order."
  flags := [⟨"jobs", some 'j', .number,
    "Declarations checked at once (default: check.parallelism)", ""⟩]
  arity := .atLeast 1
  action := some .checkFiles
  children := []

def eval : Spec where
  use := "eval TERM"
  short := "Type and normalize a term"
  long := "Prints the normal form of TERM and its type. Declarations from --load\n" ++
    "files are in scope."
  flags := [switch "ast" none "Dump the parsed term",
    ⟨"load", some 'l', .texts, "Script files to load first", ""⟩]
  arity := .atLeast 1
  action := some .evalTerm
  children := []

def watch : Spec where
  use := "watch FILE..."
  short := "Re-check script files whenever they change"
  long := ""
  flags := [⟨"debounce", none, .duration, "Wait for writes to settle this long", "200ms"⟩]
  arity := .atLeast 1
  action := some .watchFiles
  children := []

def sessions : Spec where
  use := "sessions"
  short := "List journaled sessions"
  long := ""
  flags := [journalFlag]
  arity := .none
  action := some .listSessions
  children := []

def config : Spec where
  use := "config"
  short := "Manage the configuration file"
  long := ""
  flags := []
  arity := .any
  action := none
  children :=
    [{ use := "init [PATH]"
       short := "Write the default configuration"
       long := ""
       flags := [switch "force" (some 'f') "Overwrite an existing file"]
       arity := .atMost 1
       action := some .writeSettings
       children := [] },
      { use := "show"
        short := "Print the effective configuration"
        long := ""
        flags := []
        arity := .none
        action := some .showSettings
        children := [] }]

def help : Spec where
  use := "help [command]"
  short := "Help about any command"
  long := "Help provides help for any command in the application.\n" ++
    "Simply type kernel help [path to command] for full details."
  flags := []
  arity := .any
  argument := .command
  action := some .explain
  children := []

/-- The shells, in the order in which they became known. -/
def shells : List Shell :=
  [.bash, .zsh, .fish, .powershell]

/-- The name of a shell. -/
def shellName : Shell → String
  | .bash => "bash"
  | .zsh => "zsh"
  | .fish => "fish"
  | .powershell => "powershell"

/-- How the script for a shell is used. -/
def instructions : Shell → String
  | .bash => "Generate the autocompletion script for the bash shell.\n\n" ++
    "This script depends on the 'bash-completion' package.\n" ++
    "If it is not installed already, you can install it via your OS's package manager.\n\n" ++
    "To load completions in your current shell session:\n\n" ++
    "\tsource <(kernel completion bash)\n\n" ++
    "To load completions for every new session, execute once:\n\n" ++
    "#### Linux:\n\n" ++
    "\tkernel completion bash > /etc/bash_completion.d/kernel\n\n" ++
    "#### macOS:\n\n" ++
    "\tkernel completion bash > $(brew --prefix)/etc/bash_completion.d/kernel\n\n" ++
    "You will need to start a new shell for this setup to take effect."
  | .zsh => "Generate the autocompletion script for the zsh shell.\n\n" ++
    "If shell completion is not already enabled in your environment you will need\n" ++
    "to enable it.  You can execute the following once:\n\n" ++
    "\techo \"autoload -U compinit; compinit\" >> ~/.zshrc\n\n" ++
    "To load completions in your current shell session:\n\n" ++
    "\tsource <(kernel completion zsh)\n\n" ++
    "To load completions for every new session, execute once:\n\n" ++
    "#### Linux:\n\n" ++
    "\tkernel completion zsh > \"$\x7bfpath[1]\x7d/_kernel\"\n\n" ++
    "#### macOS:\n\n" ++
    "\tkernel completion zsh > $(brew --prefix)/share/zsh/site-functions/_kernel\n\n" ++
    "You will need to start a new shell for this setup to take effect."
  | .fish => "Generate the autocompletion script for the fish shell.\n\n" ++
    "To load completions in your current shell session:\n\n" ++
    "\tkernel completion fish | source\n\n" ++
    "To load completions for every new session, execute once:\n\n" ++
    "\tkernel completion fish > ~/.config/fish/completions/kernel.fish\n\n" ++
    "You will need to start a new shell for this setup to take effect."
  | .powershell => "Generate the autocompletion script for powershell.\n\n" ++
    "To load completions in your current shell session:\n\n" ++
    "\tkernel completion powershell | Out-String | Invoke-Expression\n\n" ++
    "To load completions for every new session, add the output of the above command\n" ++
    "to your powershell profile."

/-- The command that prints the script for a shell. -/
def integration (shell : Shell) : Spec where
  use := shellName shell
  short := "Generate the autocompletion script for " ++ shellName shell
  long := instructions shell
  flags := [switch "no-descriptions" none "disable completion descriptions"]
  arity := .none
  argument := .nothing
  mentionsFlags := shell != .bash
  action := some (.integrate shell)
  children := []

def completion : Spec where
  use := "completion"
  short := "Generate the autocompletion script for the specified shell"
  long := "Generate the autocompletion script for kernel for the specified shell.\n" ++
    "See each sub-command's help for details on how to use the generated script."
  flags := []
  arity := .none
  argument := .nothing
  action := none
  children := shells.map integration

def kernel : Spec where
  use := "kernel"
  short := "A proof kernel for the Calculus of Constructions with inductive types"
  long := "kernel checks Vernacular scripts: definitions, inductive types, fixpoints\n" ++
    "and queries over a dependently typed core with a Prop/Type universe hierarchy.\n\n" ++
    "Run without arguments to start the interactive loop."
  flags := []
  arity := .any
  action := some .converse
  children := [repl, check, eval, watch, sessions, config, help, completion]

/-- The way to the program itself. -/
def root : Route :=
  ⟨["kernel"], kernel, shared⟩

/-- The command that shells ask for words, with or without what they mean.  It reads no flags. -/
def complete (withMeanings : Bool) : Spec where
  use := (if withMeanings then "__complete" else "__completeNoDesc") ++ " [command-line]"
  short := "Request shell completion choices for the specified command-line"
  long := "__complete is a special command that is used by the shell completion logic\n" ++
    "to request completion choices for the specified command-line."
  flags := []
  arity := .atLeast 1
  mentionsFlags := false
  action := some (.complete withMeanings)
  children := []

/-- The way to the program when shells ask it: it has commands that nobody else is told of. -/
def hiddenRoot : Route :=
  { root with
    spec := { kernel with children := kernel.children ++ [complete true, complete false] } }

end Program
end CommandLine
end ProofKernel
