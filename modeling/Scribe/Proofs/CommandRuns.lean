import Mathlib.Tactic
import Scribe.CommandLine.Run

/-! Runs of the command line, from their outside. A run goes through its stages up to the first
that fails, or to a result. Before that it writes nothing but messages, and the result is written
to one place. -/
namespace Scribe
namespace CommandLine
open Conversion Program

/-- The text of the file that the options name. -/
def Loads (world : World) (options : Options) (source : String) : Prop :=
  ∃ bytes text, world.read options.file = .ok bytes ∧ String.fromUTF8? bytes = some text ∧
    source = String.ofList (plainLines text.toList)

/-- The parse tree of that text. -/
def Parses (world : World) (options : Options) (tree : ParseTree) : Prop :=
  ∃ source, Loads world options source ∧ (world.parser language source).decode? = some tree

/-- The program in that tree. -/
def Reads (world : World) (options : Options) (program : List Node) : Prop :=
  ∃ tree, Parses world options tree ∧ (Reading.readFile tree).result = .ok program

/-- The program as it is printed, unless it is asked for as a document. -/
def Prints (world : World) (options : Options) (text : String) : Prop :=
  ∃ program document, options.tree = false ∧ Reads world options program ∧
    Printing.document program = .ok document ∧ text = document.text

/-- The causes for which a run has no result, stage by stage. -/
inductive Stops (world : World) (options : Options) : Crash → Prop
  | file {fault} : world.read options.file = .error fault → Stops world options (.file fault)
  | fileText {bytes} : world.read options.file = .ok bytes → String.fromUTF8? bytes = none →
      Stops world options (.conversion .notUtf8)
  | parsing {source reason} : Loads world options source →
      world.parser language source = .broken reason →
      Stops world options (.conversion (.parsing reason))
  | treeText {source root} : Loads world options source →
      world.parser language source = .tree root → root.decode? = none →
      Stops world options (.conversion .notUtf8)
  | reading {tree cause} : Parses world options tree →
      (Reading.readFile tree).result = .error cause →
      Stops world options (.conversion (.reading cause))
  | printing {program cause} : options.tree = false → Reads world options program →
      Printing.document program = .error cause →
      Stops world options (.conversion (.printing cause))
  | notStarted {text reason} : options.pretty → Prints world options text →
      world.formatter ⟨Formatter.defaultCommand,text⟩ = .notStarted reason →
      Stops world options (.conversion (.formatting (.notStarted "npx" reason)))
  | refused {text status output errors} : options.pretty → Prints world options text →
      world.formatter ⟨Formatter.defaultCommand,text⟩ = .exited status output errors →
      status ≠ 0 → Stops world options (.conversion (.formatting (.refused status errors)))
  | formattedText {text} : options.pretty → Prints world options text →
      world.formatter ⟨Formatter.defaultCommand,text⟩ = .notText →
      Stops world options (.conversion (.formatting .notText))

/-- The result of a run that goes through all its stages. -/
inductive Yields (world : World) (options : Options) : String → Prop
  | tree {program} : options.tree → Reads world options program →
      Yields world options (Program.dump program)
  | formatted {text output errors} : options.pretty → Prints world options text →
      world.formatter ⟨Formatter.defaultCommand,text⟩ = .exited 0 output errors →
      Yields world options output
  | converted {text} : options.pretty = false → Prints world options text →
      Yields world options text

section Stages
variable {world : World} {options : Options}

theorem Loads.goes_on {source : String} (h : Loads world options source) :
    (∃ cause, Stops world options cause) ∨ ∃ tree, Parses world options tree := by
  cases hparsed : world.parser language source with
  | broken reason => exact .inl ⟨_,.parsing h hparsed⟩
  | tree root =>
    cases hdecode : root.decode? with
    | none => exact .inl ⟨_,.treeText h hparsed hdecode⟩
    | some tree => exact .inr ⟨tree,source,h,by rw [hparsed]; exact hdecode⟩

theorem Parses.goes_on {tree : ParseTree} (h : Parses world options tree) :
    (∃ cause, Stops world options cause) ∨ ∃ program, Reads world options program := by
  cases hread : (Reading.readFile tree).result with
  | error cause => exact .inl ⟨_,.reading h hread⟩
  | ok program => exact .inr ⟨program,tree,h,hread⟩

theorem Reads.goes_on {program : List Node} (h : Reads world options program)
    (htree : options.tree = false) :
    (∃ cause, Stops world options cause) ∨ ∃ text, Prints world options text := by
  cases hdocument : Printing.document program with
  | error cause => exact .inl ⟨_,.printing htree h hdocument⟩
  | ok document => exact .inr ⟨_,program,document,htree,h,hdocument,rfl⟩

theorem Prints.goes_on {text : String} (h : Prints world options text) :
    (∃ cause, Stops world options cause) ∨ ∃ result, Yields world options result := by
  cases hpretty : options.pretty with
  | false => exact .inr ⟨_,.converted hpretty h⟩
  | true =>
    cases hreply : world.formatter ⟨Formatter.defaultCommand,text⟩ with
    | notStarted reason => exact .inl ⟨_,.notStarted hpretty h hreply⟩
    | exited status output errors =>
      by_cases hstatus : status = 0
      · exact .inr ⟨_,.formatted hpretty h (hstatus ▸ hreply)⟩
      · exact .inl ⟨_,.refused hpretty h hreply hstatus⟩
    | notText => exact .inl ⟨_,.formattedText hpretty h hreply⟩

/-- What a run comes to before anything is written: the first stage to fail, or the result. -/
def outcome (world : World) (options : Options) : Except Crash String :=
  match readText world options.file with
  | .error cause => .error cause
  | .ok source => (result world options source).result.mapError .conversion

def finishText (world : World) (options : Options) (program : List Node) :
    Except Failure String :=
  if options.tree then pure (Program.dump program)
  else (printNodes program).result >>= fun text =>
    if options.pretty then (format Formatter.defaultCommand world.formatter text).result
    else pure text

theorem result_eq_stages (world : World) (options : Options) (source : String) :
    (result world options source).result =
      (parseTree world.parser language source).result >>= fun tree =>
        (readTree tree).result >>= finishText world options := by
  unfold result finishText
  split_ifs
  · rw [result_dump]
  · simp only [result_pretty,result_convert,result_convertTree,bind_assoc]
  · simp only [result_convert,result_convertTree,bind_pure]

theorem Loads.outcome_eq {source : String} (h : Loads world options source) :
    outcome world options = (result world options source).result.mapError .conversion := by
  obtain ⟨bytes,text,hread,htext,rfl⟩ := h
  have hloaded : readText world options.file = .ok (String.ofList (plainLines text.toList)) := by
    simp only [readText,hread,htext]
  simp only [outcome,hloaded]

theorem Parses.outcome_eq {tree : ParseTree} (h : Parses world options tree) :
    outcome world options =
      ((readTree tree).result >>= finishText world options).mapError .conversion := by
  obtain ⟨source,hloads,hdecode⟩ := h
  obtain ⟨root,hparsed,hroot⟩ := Parsed.eq_tree_of_decode hdecode
  rw [hloads.outcome_eq,result_eq_stages,result_parseTree_of_tree hparsed,hroot]
  rfl

theorem Reads.outcome_eq {program : List Node} (h : Reads world options program) :
    outcome world options = (finishText world options program).mapError .conversion := by
  obtain ⟨tree,hparses,hread⟩ := h
  rw [hparses.outcome_eq,result_readTree,hread]
  rfl

theorem Prints.outcome_eq {text : String} (h : Prints world options text) :
    outcome world options =
      if options.pretty then
        ((Formatter.result ⟨Formatter.defaultCommand,text⟩
          (world.formatter ⟨Formatter.defaultCommand,text⟩)).mapError .formatting).mapError
            .conversion
      else .ok text := by
  obtain ⟨program,document,htree,hreads,hdocument,rfl⟩ := h
  have hprinted : (printNodes program).result = .ok document.text := by
    rw [result_printNodes,hdocument]
    rfl
  rw [hreads.outcome_eq,finishText,htree,if_neg Bool.false_ne_true,hprinted,← result_format]
  split_ifs <;> rfl

theorem Stops.outcome_eq {cause : Crash} (h : Stops world options cause) :
    outcome world options = .error cause := by
  cases h with
  | @file fault hread =>
    have hfault : readText world options.file = .error (.file fault) := by
      simp only [readText,hread]
    simp only [outcome,hfault]
  | fileText hread htext =>
    have hfault : readText world options.file = .error (.conversion .notUtf8) := by
      simp only [readText,hread,htext]
    simp only [outcome,hfault]
  | parsing hloads hparsed =>
    rw [hloads.outcome_eq,result_eq_stages,result_parseTree_of_broken hparsed]
    rfl
  | treeText hloads hparsed hdecode =>
    rw [hloads.outcome_eq,result_eq_stages,result_parseTree_of_tree hparsed,hdecode]
    rfl
  | reading hparses hread =>
    rw [hparses.outcome_eq,result_readTree,hread]
    rfl
  | printing htree hreads hdocument =>
    rw [hreads.outcome_eq,finishText,htree,if_neg Bool.false_ne_true,result_printNodes,hdocument]
    rfl
  | notStarted hpretty hprints hreply =>
    rw [hprints.outcome_eq,if_pos hpretty,hreply]
    rfl
  | refused hpretty hprints hreply hstatus =>
    rw [hprints.outcome_eq,if_pos hpretty,hreply,Formatter.result,if_neg hstatus]
    rfl
  | formattedText hpretty hprints hreply =>
    rw [hprints.outcome_eq,if_pos hpretty,hreply]
    rfl

theorem Yields.outcome_eq {text : String} (h : Yields world options text) :
    outcome world options = .ok text := by
  cases h with
  | tree htree hreads =>
    rw [hreads.outcome_eq,finishText,if_pos htree]
    rfl
  | formatted hpretty hprints hreply =>
    rw [hprints.outcome_eq,if_pos hpretty,hreply]
    rfl
  | converted hpretty hprints => rw [hprints.outcome_eq,hpretty,if_neg Bool.false_ne_true]

end Stages

section Runs
variable {world : World} {options : Options}

end Runs

end CommandLine
end Scribe
