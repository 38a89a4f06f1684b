import Sandscript.Path

/-!
# Failures

Whatever the toolchain is asked to do ends in a result or in one `Failure`. A failure knows its
cause; `Failure.message` is its wording and `Failure.exitCode` the status a command ends with.
`IoError` lists what can go wrong on the machine below, in the machine's own words.
-/

namespace Sandscript

/-- What the machine answers when an operation on files, streams or programs fails. -/
inductive IoError where
  | notFound
  | notExecutableFormat
  | denied
  | alreadyExists
  | notDirectory
  | isDirectory
  | directoryNotEmpty
  | tooManyLinks
  | invalidArgument
  | nameTooLong
  /-- A name holds a character that ends texts on the machine below. -/
  | zeroInName
  /-- What a program is to be started with holds such a character. -/
  | zeroInLaunch
  | notRegularFile
  | notUtf8
  | separatorInEntry
  | sinkFull
  /-- An error at a named place. -/
  | located (cause : IoError) (quotedPath : Text)
  | other (reason : Text)
deriving DecidableEq, Repr

namespace IoError

/-- The machine's phrase for an error. -/
def phrase : IoError → Text
  | notFound => "No such file or directory".toList
  | notExecutableFormat => "Exec format error".toList
  | denied => "Permission denied".toList
  | alreadyExists => "File exists".toList
  | notDirectory => "Not a directory".toList
  | isDirectory => "Is a directory".toList
  | directoryNotEmpty => "Directory not empty".toList
  | tooManyLinks => "Too many levels of symbolic links".toList
  | invalidArgument => "Invalid argument".toList
  | nameTooLong => "File name too long".toList
  | zeroInName => "file name contained an unexpected NUL byte".toList
  | zeroInLaunch => "nul byte found in provided data".toList
  | notRegularFile =>
    "the source path is neither a regular file nor a symlink to a regular file".toList
  | notUtf8 => "stream did not contain valid UTF-8".toList
  | separatorInEntry => "path segment contains separator `:`".toList
  | sinkFull => "sink is full".toList
  | located cause quotedPath => cause.phrase ++ " at path ".toList ++ quotedPath
  | other reason => reason

/-- The machine's number for an error. -/
def number? : IoError → Option Nat
  | notFound => some 2
  | notExecutableFormat => some 8
  | denied => some 13
  | alreadyExists => some 17
  | notDirectory => some 20
  | isDirectory => some 21
  | invalidArgument => some 22
  | nameTooLong => some 36
  | directoryNotEmpty => some 39
  | tooManyLinks => some 40
  | zeroInName | zeroInLaunch | notRegularFile | notUtf8 | separatorInEntry | sinkFull
  | located _ _ | other _ => none

/-- The wording of a machine error: the phrase, with the number if there is one. -/
def message : IoError → Text
  | located cause quotedPath => cause.message ++ " at path ".toList ++ quotedPath
  | e =>
    match e.number? with
    | some n => e.phrase ++ " (os error ".toList ++ Text.ofNat n ++ [')']
    | none => e.phrase

end IoError

/-- Why the toolchain gave up. -/
inductive Failure where
  /-- There is no readable source file at the path. -/
  | sourceMissing (path : Path)
  /-- The source file holds blanks only. -/
  | sourceEmpty (path : Path)
  /-- The host's own import keyword is used. -/
  | forbiddenImport (line : Nat)
  /-- A statement could not be lowered. -/
  | badStatement (line : Nat) (reason : Text)
  /-- The project's settings could not be read. -/
  | badSettings (path : Path) (reason : Text)
  /-- The workspace could not be prepared. -/
  | noWorkspace (cause : IoError)
  /-- The program did not run to a regular end; with the status it ended with, if there is one. -/
  | runFailed (reason : Text) (status : Option Int)
deriving DecidableEq, Repr

namespace Failure

/-- The wording of a failure. -/
def message : Failure → Text
  | sourceMissing path => "source file not found: ".toList ++ path.text
  | sourceEmpty path => "source file is empty: ".toList ++ path.text
  | forbiddenImport line => "line ".toList ++ Text.ofNat line ++
      ": the keyword 'import' cannot be used, use 'declare' to identify modules".toList
  | badStatement line reason => "line ".toList ++ Text.ofNat line ++ ": ".toList ++ reason
  | badSettings path reason =>
    "invalid project configuration ".toList ++ path.text ++ ": ".toList ++ reason
  | noWorkspace cause => "failed to prepare workspace: ".toList ++ cause.message
  | runFailed reason _ => "execution failed: ".toList ++ reason

/-- The status that a command ends with after a failure: the program's own status if that is known
and not zero, and one otherwise. -/
def exitCode : Failure → Int
  | runFailed _ (some status) => if status = 0 then 1 else status
  | _ => 1

/-- A command never reports success after a failure. -/
theorem exitCode_ne_zero (f : Failure) : f.exitCode ≠ 0 := by
  unfold exitCode
  split
  · split <;> simp_all
  · decide

end Failure

end Sandscript
