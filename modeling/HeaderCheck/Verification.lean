import HeaderCheck.Boilerplate.Load
import HeaderCheck.Header.Matcher
import HeaderCheck.Report
import HeaderCheck.Selection.Select
import HeaderCheck.Settings.Basic

/-! A run over the files of a repository. The first failure ends it; a header that does not match
is only noted. -/

namespace HeaderCheck

/-- Bytes that are no UTF-8 are replaced, so that a binary file fails the check and not the run. -/
def World.readSource (w : World) (p : Path) : Except Failure Text :=
  match w.readBytes p with
  | .error fault => .error (.onDisk .readFile p fault)
  | .ok bytes => .ok (Utf8.decodeLossy bytes)

def World.checkFile (w : World) (m : Matcher) (forced : Option Key) (p : Path) :
    Except Failure FileResult :=
  (w.readSource p).bind fun contents =>
    (m.verdict contents (p.keyUnder forced)).map fun passed => ⟨p, p.keyUnder forced, passed⟩

/-- Checks the files one after another. -/
def World.checkFiles (w : World) (m : Matcher) (forced : Option Key) :
    List Path → Except Failure (List FileResult)
  | [] => .ok []
  | p :: more =>
    (w.checkFile m forced p).bind fun result => (w.checkFiles m forced more).map (result :: ·)

/-- A forced key has to have a reference before any file is selected. -/
def requireReference (b : Boilerplate) : Option Key → Except Failure Unit
  | none => .ok ()
  | some key => if b.references.contains key then .ok () else .error (.unknownKey key)

def World.verify (w : World) (s : Settings) : Except Failure Report :=
  (loadBoilerplate w s.boilerplateDir).bind fun boilerplate =>
    (requireReference boilerplate s.forcedKey).bind fun _ =>
      (w.selectFiles s.root s.files skipFragments boilerplate.references.contains s.forcedKey).bind
        fun paths =>
          (w.checkFiles (boilerplate.matcher s.anyYear) s.forcedKey paths).map fun results =>
            ⟨s.root, results⟩

end HeaderCheck
