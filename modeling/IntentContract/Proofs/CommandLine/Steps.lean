import IntentContract.CommandLine.Run
import IntentContract.Proofs.Files.World

/-!
# The steps of commands

Commands read before they write. Loading a configuration with the rules it names and taking texts
and contracts from files are readings, so that a world in which one of them fails is the world as
it was. Printing adds lines to the output and cannot fail (`perform_printLines`). Writing a file
either puts it into the tree or complains and leaves the tree as it was (`perform_writeText`).
-/

namespace IntentContract

open World

/-! ## Files and results -/

namespace Work

variable {α : Type}

theorem isReading_orFault (action : String) (r : Except FileFault α) :
    IsReading (orFault action r : Work (StateM World) α) := by
  cases r with
  | error fault => exact isReading_throw _
  | ok a => exact isReading_pure a

theorem isReading_orFailureDuring (action : String) (r : Except Failure α) :
    IsReading (orFailureDuring action r : Work (StateM World) α) := by
  cases r with
  | error e => exact isReading_throw _
  | ok a => exact isReading_pure a

theorem answer_orFault_eq_ok_iff {w : World} {action : String} {r : Except FileFault α} {a : α} :
    w.answer (orFault action r) = .ok a ↔ r = .ok a := by
  cases r with
  | error fault => exact ⟨fun h => (by cases h), fun h => (by cases h)⟩
  | ok b => exact ⟨fun h => congrArg _ (Except.ok.inj h), fun h => congrArg _ (Except.ok.inj h)⟩

theorem answer_orFailureDuring_eq_ok_iff {w : World} {action : String} {r : Except Failure α}
    {a : α} : w.answer (orFailureDuring action r) = .ok a ↔ r = .ok a := by
  cases r with
  | error e => exact ⟨fun h => (by cases h), fun h => (by cases h)⟩
  | ok b => exact ⟨fun h => congrArg _ (Except.ok.inj h), fun h => congrArg _ (Except.ok.inj h)⟩

theorem isReading_readText (path : String) :
    IsReading (readText path : Work (StateM World) String) :=
  (isReading_ask (·.readText path)).bind fun _ => isReading_orFault _ _

/-- A text that can be read is the text of a file in the tree. -/
theorem answer_readText_eq_ok_iff {w : World} {path text : String} :
    w.answer (readText path) = .ok text ↔ w.tree.readText path = .ok text := by
  have hread : w.answer (readText path) = w.answer (orFault ("reading " ++ path)
      (w.tree.readText path)) := rfl
  rw [hread, answer_orFault_eq_ok_iff]

theorem isReading_readContract (path : String) :
    IsReading (readContract path : Work (StateM World) Contract) :=
  (isReading_readText path).bind fun _ => isReading_orFailureDuring _ _

end Work

/-! ## Configurations -/

namespace Config

theorem isReading_readFile (path : String) :
    IsReading (readFile path : ExceptT Failure (StateM World) String) := by
  refine (isReading_ask (·.readText path)).bind fun r => ?_
  cases r with
  | error fault => exact isReading_throw _
  | ok text => exact isReading_pure text

theorem isReading_load (path : String) :
    IsReading (load path : ExceptT Failure (StateM World) Config) :=
  (isReading_readFile path).bind fun _ =>
    (isReading_liftExcept _).bind fun _ => isReading_pure _

theorem isReading_documentRules (config : Config) (kind : DocumentKind) (file : Option String) :
    IsReading (config.documentRules kind file : ExceptT Failure (StateM World) DocumentRules) := by
  have hload : ∀ path,
      IsReading (loadDocumentRules kind path : ExceptT Failure (StateM World) DocumentRules) :=
    fun path => ((isReading_readFile path).bind fun _ => isReading_liftExcept _).bind fun _ =>
      isReading_pure _
  unfold documentRules
  split
  · exact hload _
  · exact hload _
  · exact isReading_pure _

end Config

namespace Work

variable {α : Type}

theorem isReading_configured {r : ExceptT Failure (StateM World) α} (h : IsReading r) :
    IsReading (configured r : Work (StateM World) α) := by
  refine h.lift_run.bind fun r => ?_
  cases r with
  | error e => exact isReading_throw _
  | ok a => exact isReading_pure a

theorem isReading_loadConfig (file : Option String) :
    IsReading (loadConfig file : Work (StateM World) Config) := by
  cases file with
  | some path => exact isReading_configured (Config.isReading_load path)
  | none =>
    refine (isReading_ask (·.isFile Config.fileName)).bind fun isThere => ?_
    cases isThere with
    | true => exact isReading_configured (Config.isReading_load _)
    | false => exact isReading_pure _

theorem isReading_callRules (config : Config) :
    IsReading (callRules config : Work (StateM World) CallRules) :=
  (isReading_configured (config.isReading_documentRules _ _)).bind fun _ =>
    (isReading_configured (config.isReading_documentRules _ _)).bind fun _ => isReading_pure _

/-! ## Printing and writing -/

/-- Lines as they are printed. -/
def printed (lines : List String) : String :=
  String.join (lines.map (· ++ "\n"))

theorem perform_printLines (w : World) (lines : List String) :
    w.perform (printLines lines) = (.ok (), { w with output := w.output ++ printed lines }) := by
  induction lines generalizing w with
  | nil =>
    rw [printed, List.map_nil, String.join_nil, String.append_empty]
    rfl
  | cons line lines ih =>
    have hline : w.perform (printLines (line :: lines))
        = World.perform { w with output := w.output ++ (line ++ "\n") } (printLines lines) := rfl
    rw [hline, ih, printed, printed, List.map_cons, String.join_cons, String.append_assoc]

/-- **Writing a file** puts it into the tree, or changes nothing. -/
theorem perform_writeText (w : World) (path text : String) :
    w.perform (writeText path text) = match w.tree.writeText path text with
      | .ok tree => (.ok (), { w with tree })
      | .error fault => (.error ⟨["writing " ++ path, fault.text]⟩, w) := by
  have hchange : w.perform (writeText path text) = World.perform
      { w with tree := (orKept (fun t => t.writeText path text) w.tree).2 }
      (orFault ("writing " ++ path) (orKept (fun t => t.writeText path text) w.tree).1) := rfl
  rw [hchange, orKept]
  cases w.tree.writeText path text <;> rfl

end Work

end IntentContract
