import Sandscript.Shell.FileTools
import Sandscript.Shell.LineTools
import Sandscript.Shell.Printf

/-!
# The tools of the system

All tools by name, and the disk of a fresh system, on which each of them has a file. The file of a
tool starts with a mark, so that a program is known by its contents: a mark and a name for a tool,
`#!` and an interpreter for a script.
-/

namespace Sandscript

namespace Shell

-- ---------------------------------------------------------------------------
-- Small tools
-- ---------------------------------------------------------------------------

/-- A time in milliseconds: a number with a fraction and a unit. -/
def duration? (t : Text) : Option Nat :=
  let whole := t.takeWhile Char.isDigit
  let (fraction, unit) := match t.drop whole.length with
    | '.' :: rest => (rest.takeWhile Char.isDigit, rest.dropWhile Char.isDigit)
    | rest => ([], rest)
  let factor := match unit with
    | [] | ['s'] => some 1
    | ['m'] => some 60
    | ['h'] => some 3600
    | ['d'] => some 86400
    | _ => none
  if whole.isEmpty && fraction.isEmpty then none
  else
    let thousandths := (fraction ++ ['0', '0', '0']).take 3
    factor.map fun k =>
      k * (((decimal? whole).getD 0) * 1000 + (decimal? thousandths).getD 0)

/-- Waits. -/
def sleep : Tool := fun c =>
  c.words.foldl (fun e word =>
    match duration? word with
    | some ms => { e with waitMs := e.waitMs + ms }
    | none => e.complain c ("invalid time interval ".toList ++ named word)) c.start

/-- Numbers from one to another. -/
def seq : Tool := fun c =>
  let count := fun (first step last : Nat) =>
    if step = 0 then [] else (List.range ((last + step - first) / step)).map (first + step * ·)
  match c.words.map decimal? with
  | [some last] => c.start.print (unlinesOf ((count 1 1 last).map Text.ofNat))
  | [some first, some last] => c.start.print (unlinesOf ((count first 1 last).map Text.ofNat))
  | [some first, some step, some last] =>
    c.start.print (unlinesOf ((count first step last).map Text.ofNat))
  | _ => c.start.complain c "invalid operand".toList

/-- Shows variables. -/
def printenv : Tool := fun c =>
  if c.words.isEmpty then
    c.start.print (unlinesOf (c.vars.map fun (name, value) => name ++ '=' :: value))
  else c.words.foldl (fun e name =>
    match c.vars.lookup name with
    | some value => e.printLine value
    | none => { e with status := 1 }) c.start

/-- Writes its input to the output and to files. -/
def tee : Tool := fun c =>
  c.options.2.foldl (fun e name =>
    match e.disk.writeFile c.directory (toPath name) c.input with
    | .ok disk => { e with disk }
    | .error cause => e.complain c (name ++ ": ".toList ++ cause.phrase))
    (c.start.write c.input)

-- ---------------------------------------------------------------------------
-- The catalog
-- ---------------------------------------------------------------------------

/-- The tools by name. -/
def tools : List (String × Tool) :=
  [("mkdir", mkdir), ("rmdir", rmdir), ("rm", rm), ("touch", touch), ("ln", ln), ("chmod", chmod),
    ("cp", cp), ("mv", mv), ("cat", cat), ("ls", ls), ("find", find), ("readlink", readlink),
    ("basename", basename), ("dirname", dirname), ("head", head), ("tail", tail), ("sort", sort),
    ("uniq", uniq), ("wc", wc), ("grep", grep), ("sed", sed), ("tr", tr), ("cut", cut),
    ("sleep", sleep), ("seq", seq), ("printenv", printenv), ("tee", tee),
    ("true", Call.start), ("false", fun c => { c.start with status := 1 }),
    ("echo", fun c => c.start.print (echo c.words)),
    ("pwd", fun c => c.start.printLine (ofText c.directory.toPath.text))]

/-- The names of the shell. -/
def shellNames : List String := ["sh", "dash", "bash"]

/-- The mark at the front of a tool's file. -/
def toolMark : Bytes := [0x7F, 0x45, 0x4C, 0x46]

/-- What a program file is. -/
inductive ProgramKind where
  | tool (name : Text)
  /-- A script with the interpreter on its first line, and the interpreter's argument. -/
  | script (interpreter : Text) (argument : Option Text)
  | unknown

/-- What a program file is, by its contents. -/
def programKind (bytes : Bytes) : ProgramKind :=
  if toolMark.isPrefixOf bytes then .tool (ofBytes (bytes.drop toolMark.length))
  else match ofBytes bytes with
    | '#' :: '!' :: rest =>
      let line := (rest.takeWhile (· != '\n')).dropWhile isSpace
      let interpreter := line.takeWhile fun c => !isSpace c
      let tail := ((line.drop interpreter.length).dropWhile isSpace).reverse.dropWhile isSpace
      if interpreter.isEmpty then .unknown
      else .script interpreter (if tail.isEmpty then none else some tail.reverse)
    | _ => .unknown

/-- The directories where programs are looked for if nothing else is said. -/
def defaultPath : Text := "/usr/local/sbin:/usr/local/bin:/usr/sbin:/usr/bin:/sbin:/bin".toList

/-- The disk of a fresh system. -/
def systemDisk : Disk :=
  let directories := [["tmp"], ["dev"], ["root"], ["home"], ["etc"], ["usr"], ["usr", "bin"],
    ["usr", "sbin"], ["usr", "local"], ["usr", "local", "bin"], ["usr", "local", "sbin"]]
  let links := [("bin", "usr/bin"), ("sbin", "usr/sbin")]
  let programs := shellNames ++ ["env"] ++ tools.map (·.1)
  ⟨directories.map (fun l => (l.map String.toList, Entry.directory)) ++
    [(["dev".toList, "null".toList], Entry.file [] false)] ++
    links.map (fun (name, target) => ([name.toList], Entry.link (.ofString target))) ++
    programs.map fun name => (["usr".toList, "bin".toList, name.toList],
      Entry.file (toolMark ++ Utf8.encode name.toList) true)⟩

end Shell

end Sandscript
