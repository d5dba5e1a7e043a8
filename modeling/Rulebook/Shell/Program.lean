import Rulebook.Program
import Rulebook.Shell.Run

/-!
# Programs in a file system

This module provides a host that needs no operating system: it runs the shell and the utilities that are found in the
directory of programs. It is what the program is run with; nothing that is said of compilations rests on it.

* `FileSystem.withPrograms` — a file system with the programs in it, and with the files of devices;
* `Shell.Program.find` — the program that a name or a path stands for;
* `Shell.Program.run` — what it makes of its arguments and of its input; and
* `Shell.Program.host` — the host that runs it, which is lawful (`Shell.Program.lawful`).
-/

namespace Rulebook

/-- The file system with a node at a location, unless there is one already. -/
def FileSystem.withNode (node : Tree) (fs : FileSystem) (location : Location) : FileSystem :=
  if (fs.root.at? location).isSome then fs else { fs with root := node.put location fs.root }

/-- The files of a tree, with a working directory in it, with programs in the directory where they are looked for, and
with the files of devices. -/
def FileSystem.withPrograms (files : Tree × Location) : FileSystem :=
  let directories := [["dev"], ["root"], ["tmp"], ["usr"], Shell.programDirectory]
  let devices := ["full", "null", "stderr", "stdin", "stdout"].map fun name => ["dev", name]
  let programs := Shell.programNames.map fun name => Shell.programDirectory ++ [name]
  let fs : FileSystem := { root := files.1, here := files.2 }
  let fs := directories.foldl (withNode (.directory [])) fs
  let fs := (devices ++ programs).foldl (withNode (.file .empty)) fs
  withNode (.link "usr/bin") fs ["bin"]

namespace Shell.Program

open Rulebook.Program (Run)

/-- Why a program cannot be started. -/
inductive Fault where
  | system (error : SystemError)
  | zeroByte

/-- The fault in words. -/
def Fault.message : Fault → String
  | .system error => error.message
  | .zeroByte => "nul byte found in provided data"

/-- The fault of a search. -/
def Fault.ofSearch : SearchFault → Fault
  | .system error => .system error
  | .refused => .system .permissionDenied

/-- The program that a name or a path stands for. -/
def find (files : FileSystem) (name : String) : Except Fault String :=
  if name.isEmpty then .error (.system .notFound)
  else if !name.toList.contains '/' && FileSystem.longestName < name.utf8ByteSize then .error (.system .nameTooLong)
  else
    match search files standardDirectories (Text.toOctets name) with
    | .ok (_, program) => .ok program
    | .error fault => .error (.ofSearch fault)

/-- The state in which a program starts: it reads the input, and what it writes is collected. -/
def startState (files : FileSystem) (input : ByteArray) : State where
  files := files
  sources := #[input]
  sinks := #[.empty, .empty]
  handles := #[]
  streams := [(0, .source 0), (1, .sink 0), (2, .sink 1)]
  name := ""
  arguments := []
  bindings := [("HOME", ⟨some "/root", true, false⟩), ("PATH", ⟨some standardDirectories, true, false⟩)]
  functions := []
  aliases := []
  found := []
  scopes := []
  options := []
  traps := []
  status := 0
  trappedStatus? := none
  outputStatus := 0
  line := 0
  reached := 1
  speaker? := none
  loops := 0
  depth := 0
  documents := #[]
  jobs := []
  process := 1000
  processes := 1000
  isCopy := false
  signals := []
  optionIndex := 1
  optionOffset? := none
  directory := Builtin.locationPath files.here
  mask := 18

/-- Run a program to its end. What it has not read of its input is left in its first source. -/
def run (files : FileSystem) (name : String) (arguments : List String) (input : ByteArray) : Except Fault Run :=
  if (name :: arguments).any fun text => text.toList.contains '\x00' then .error .zeroByte
  else
    match find files name with
    | .error fault => .error fault
    | .ok program =>
      let state := startState files input
      let step := runProgram program (Text.toOctets name) (arguments.map Text.toOctets) state
      let unread := (step.state.sources.getD 0 .empty).size
      .ok {
        files := { step.state.files with here := files.here }
        received := input.extract 0 (input.size - unread)
        sawEnd := unread == 0
        feeding := .ended (.ok ()) (.ok ())
        result := .ok {
          ending := match step.flow with
            | .killed signal => .killed signal
            | _ => .exited (step.state.status % 256)
          output := step.state.collected 0
          diagnostics := step.state.collected 1 } }

instance host : Rulebook.Program.Host where
  run files name arguments input := (run files name arguments input).mapError Fault.message

variable {files : FileSystem} {name : String} {arguments : List String} {input : ByteArray} {done : Run}

/-- A program has read its input but for a rest, and nothing goes wrong with the pipe. -/
theorem host_run_eq_ok (h : Rulebook.Program.Host.run files name arguments input = .ok done) :
    ∃ unread, done.received = input.extract 0 (input.size - unread) ∧ done.sawEnd = (unread == 0) ∧
      done.feeding = .ended (.ok ()) (.ok ()) := by
  replace h : (run files name arguments input).mapError Fault.message = .ok done := h
  rw [run] at h
  split at h
  · cases h
  · split at h
    · cases h
    · cases h
      exact ⟨_, rfl, rfl, rfl⟩

theorem lawful : Rulebook.Program.Host.Lawful where
  received_begins {_ _ _ input _} h := by
    obtain ⟨unread, hreceived, -⟩ := host_run_eq_ok h
    refine ⟨input.extract (input.size - unread) input.size, ?_⟩
    rw [hreceived, ByteArray.extract_append_extract, Nat.zero_min, Nat.max_eq_right (Nat.sub_le _ _),
      ByteArray.extract_zero_size]
  received_all h hend _ := by
    obtain ⟨unread, hreceived, hsaw, -⟩ := host_run_eq_ok h
    obtain rfl : unread = 0 := beq_iff_eq.1 (hsaw.symm.trans hend)
    rw [hreceived, Nat.sub_zero, ByteArray.extract_zero_size]
  not_broken h _ hbroken := by
    obtain ⟨_, _, _, hfeeding⟩ := host_run_eq_ok h
    cases hfeeding.symm.trans hbroken

end Shell.Program

end Rulebook
