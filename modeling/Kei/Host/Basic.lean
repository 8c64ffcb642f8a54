/-!
# What a program may ask of its host

Reading and writing whole files, finding and running tools, and writing to the two output channels.
`Host` gathers these for any way of carrying them out.
-/

namespace Kei

/-- Why a file could not be read or written. -/
inductive FileError
  | notFound
  | notDirectory
  | isDirectory
  | nameTooLong
  /-- The file does not hold text. -/
  | notText
  | other (message : String)
deriving DecidableEq, Repr

def FileError.message : FileError → String
  | notFound => "No such file or directory (os error 2)"
  | notDirectory => "Not a directory (os error 20)"
  | isDirectory => "Is a directory (os error 21)"
  | nameTooLong => "File name too long (os error 36)"
  | notText => "stream did not contain valid UTF-8"
  | other message => message

/-- How a tool ended. -/
inductive Ending
  | exited (code : Nat)
  | killed (signal : Nat)
deriving DecidableEq, Repr

namespace Ending

/-- The names of the signals, from the first on. -/
def signalNames : List String :=
  ["SIGHUP", "SIGINT", "SIGQUIT", "SIGILL", "SIGTRAP", "SIGABRT", "SIGBUS", "SIGFPE", "SIGKILL",
    "SIGUSR1", "SIGSEGV", "SIGUSR2", "SIGPIPE", "SIGALRM", "SIGTERM", "SIGSTKFLT", "SIGCHLD",
    "SIGCONT", "SIGSTOP", "SIGTSTP", "SIGTTIN", "SIGTTOU", "SIGURG", "SIGXCPU", "SIGXFSZ",
    "SIGVTALRM", "SIGPROF", "SIGWINCH", "SIGIO", "SIGPWR", "SIGSYS"]

def describe : Ending → String
  | exited code => "exit status: " ++ toString code
  | killed signal =>
    "signal: " ++ toString signal ++
      match signal, signalNames[signal - 1]? with
      | _ + 1, some name => " (" ++ name ++ ")"
      | _, _ => ""

end Ending

/-- What a host offers, in a monad that carries it out. -/
structure Host (m : Type → Type) where
  read : String → m (Except FileError String)
  write : String → String → m (Except FileError Unit)
  /-- Whether there is a tool of this name. -/
  hasTool : String → m Bool
  /-- Run a tool; `none` if it cannot be started. -/
  runTool : String → List String → m (Option Ending)
  print : String → m Unit
  /-- Write to the channel for errors and log lines. -/
  report : String → m Unit

end Kei
