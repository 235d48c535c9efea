import IntentContract.Proofs.CommandLine.Steps
import IntentContract.Proofs.Contract.WellFormed
import IntentContract.Proofs.Files.Tree
import IntentContract.Proofs.LinkedData.Alignment
import Mathlib.Data.List.Nodup

/-!
# A compilation stays in its directory

The files of a compilation are named after the interface. An interface is named by a word, a word
in lower case with dashes holds nothing but small letters, digits and dashes (`isStem_dashed`), and
such a stem with one of the fixed suffixes is a plain file name, whatever the interface is called.
So every file is put directly into the location that the output directory's path leads to
(`FileTree.Writes.writtenInto`).

Nothing is written before everything has been computed. A compilation that fails for its
configuration or its source leaves the world as it was (`Invocation.compile_confined`).
-/

namespace IntentContract

open World

/-! ## Stems and suffixes -/

/-- A character of a stem: a small letter, a digit or a dash. -/
def isStemChar (c : Char) : Bool :=
  c.isLower || c.isDigit || c = '-'

/-- **What the names of generated files start with.** -/
structure IsStem (stem : String) : Prop where
  ne_empty : stem ≠ ""
  chars : ∀ c ∈ stem.toList, isStemChar c = true

/-- Capitals become small letters. -/
theorem isStemChar_toLower {c : Char} (h : c.isUpper = true) : isStemChar c.toLower = true := by
  have hcapital : c.toNat ≤ 90 := UInt32.le_iff_toNat_le.mp (of_decide_eq_true h).2
  have hall : ∀ n ≤ 90, (Char.ofNat n).isUpper = true
      → isStemChar (Char.ofNat n).toLower = true := by
    decide
  have hc := hall c.toNat hcapital
  rw [Char.ofNat_toNat] at hc
  exact hc h

theorem isStemChar_of_mem_dashedFrom {before : Option Char} {cs : List Char}
    (h : ∀ c ∈ cs, Scan.isWordPart c = true) :
    ∀ c ∈ dashedFrom before cs, isStemChar c = true := by
  induction cs generalizing before with
  | nil => simp [dashedFrom]
  | cons c cs ih =>
    rw [List.forall_mem_cons] at h
    rw [dashedFrom]
    refine List.forall_mem_append.mpr ⟨?_, ih h.2⟩
    by_cases hupper : c.isUpper = true
    · have hlower := isStemChar_toLower hupper
      have hdash : isStemChar '-' = true := rfl
      rw [if_pos hupper]
      split <;> simp [hlower, hdash]
    · have hclasses : Scan.isWordPart c
          = (((c.isUpper || c.isLower) || c.isDigit) || decide (c = '_') || decide (c = '-')) := rfl
      rw [if_neg hupper]
      split
      · simp [isStemChar]
      · simp_all [isStemChar]

/-- A character leaves at least one character behind. -/
theorem dashedFrom_cons_ne_nil (before : Option Char) (c : Char) (cs : List Char) :
    dashedFrom before (c :: cs) ≠ [] := by
  rw [dashedFrom]
  split
  · split <;> simp
  · split <;> simp

/-- **A word makes a stem.** -/
theorem isStem_dashed {name : String} (h : isWord name = true) : IsStem (dashed name) := by
  obtain ⟨c, cs, hname, hstart, hrest⟩ := isWord_iff.mp h
  have hparts : ∀ d ∈ name.toList, Scan.isWordPart d = true := by
    rw [hname]
    refine List.forall_mem_cons.mpr ⟨?_, hrest⟩
    rw [Scan.isWordStart, Bool.or_eq_true] at hstart
    rcases hstart with halpha | hunderscore
    · simp [Scan.isWordPart, Char.isAlphanum, halpha]
    · simp_all [Scan.isWordPart]
  refine ⟨fun hempty => ?_, ?_⟩
  · have hnil : dashedFrom none name.toList = [] := by
      rw [← String.toList_ofList (l := dashedFrom none name.toList), ← dashed, hempty]
      rfl
    rw [hname] at hnil
    exact dashedFrom_cons_ne_nil _ _ _ hnil
  · rw [dashed, String.toList_ofList]
    exact isStemChar_of_mem_dashedFrom hparts

/-- **What the names of generated files end in.** -/
def fileSuffixes : List String :=
  [".client.ts", ".handlers.ts", ".client.js", ".handlers.js", ".jsonld", ".ttl"]

/-- What the names of a flavor's modules end in. -/
def Flavor.suffixes : Flavor → List String
  | .typeScript => [".client.ts", ".handlers.ts"]
  | .javaScript => [".client.js", ".handlers.js"]

/-- What the names of all files end in, for some flavors. -/
def suffixesOf (flavors : List Flavor) : List String :=
  flavors.flatMap Flavor.suffixes ++ [".jsonld", ".ttl"]

theorem mem_fileSuffixes {flavors : List Flavor} {suffix : String}
    (h : suffix ∈ suffixesOf flavors) : suffix ∈ fileSuffixes := by
  have hflavor : ∀ f : Flavor, f.suffixes ⊆ fileSuffixes := by
    intro f
    cases f <;> decide
  rcases List.mem_append.mp h with hmodule | hlinked
  · obtain ⟨f, -, hsuffix⟩ := List.mem_flatMap.mp hmodule
    exact hflavor f hsuffix
  · exact List.subset_def.mp (by decide) hlinked

theorem length_suffixesOf (flavors : List Flavor) :
    (suffixesOf flavors).length = 2 * flavors.length + 2 := by
  have hflavor : ∀ f : Flavor, f.suffixes.length = 2 := by
    intro f
    cases f <;> rfl
  have hsum : (flavors.map fun f => f.suffixes.length).sum = 2 * flavors.length := by
    simp [hflavor, Nat.mul_comm]
  rw [suffixesOf, List.length_append, List.length_flatMap, hsum]
  rfl

/-- Different flavors have different suffixes. -/
theorem nodup_suffixesOf {flavors : List Flavor} (h : flavors.Nodup) :
    (suffixesOf flavors).Nodup := by
  have hflavors : ∀ f g : Flavor, f ≠ g → ∀ s ∈ f.suffixes, s ∉ g.suffixes := by
    intro f g hne
    cases f <;> cases g
    · exact absurd rfl hne
    · decide
    · decide
    · exact absurd rfl hne
  have hlinked : ∀ f : Flavor, ∀ s ∈ f.suffixes, s ∉ [".jsonld", ".ttl"] := by
    intro f
    cases f <;> decide
  refine List.Nodup.append (List.nodup_flatMap.mpr ⟨fun f _ => ?_, ?_⟩) (by decide) ?_
  · cases f <;> decide
  · exact h.imp fun {f g} hne s hf hg => hflavors f g hne s hf hg
  · intro s hs
    obtain ⟨f, -, hf⟩ := List.mem_flatMap.mp hs
    exact hlinked f s hf

/-- A stem with a suffix is a plain file name. -/
theorem IsStem.isFileName {stem suffix : String} (h : IsStem stem)
    (hsuffix : suffix ∈ fileSuffixes) : Path.IsFileName (stem ++ suffix) := by
  obtain ⟨c, cs, hstem⟩ := List.exists_cons_of_ne_nil (mt String.toList_eq_nil_iff.mp h.ne_empty)
  have hfirst : c ≠ '.' := by
    rintro rfl
    have := h.chars '.' (by simp [hstem])
    cases this
  have hchars : (stem ++ suffix).toList = c :: (cs ++ suffix.toList) := by
    rw [String.toList_append, hstem, List.cons_append]
  -- Only its first character has to be looked at to tell a name from the dots.
  have hne : ∀ dots : String, dots.toList.head? ≠ some c → stem ++ suffix ≠ dots := by
    rintro dots hdots rfl
    exact hdots (by rw [hchars]; rfl)
  have hdot : some '.' ≠ some c := by simpa using hfirst.symm
  refine ⟨?_, hne "" (by simp), hne "." hdot, hne ".." hdot⟩
  rw [String.toList_append, List.mem_append, not_or]
  refine ⟨fun hslash => ?_, ?_⟩
  · have := h.chars '/' hslash
    cases this
  · have hall : ∀ s ∈ fileSuffixes, '/' ∉ s.toList := by decide
    exact hall suffix hsuffix

/-- The flavors that a compilation is made in. -/
def Config.selected (config : Config) (flavors : Option (List Flavor)) : List Flavor :=
  flavors.getD [config.flavor.getD .typeScript]

/-- **The names of the files of a compilation.** -/
theorem Artifacts.names_files {source : String} {flavors : List Flavor} {prefixes : PrefixTable}
    {a : Artifacts} (h : compile source flavors prefixes = .ok a) :
    Contract.ofSource source = .ok a.contract
      ∧ a.files.map (·.name) = (suffixesOf flavors).map (dashed a.contract.name ++ ·) := by
  rw [compile] at h
  cases hsource : Contract.ofSource source with
  | error e => rw [hsource] at h; cases h
  | ok c =>
    rw [hsource] at h
    obtain rfl := Except.ok.inj h
    refine ⟨rfl, ?_⟩
    have hmodules : ∀ f : Flavor, [(c.generate f).client.name, (c.generate f).handlers.name]
        = f.suffixes.map (dashed c.name ++ ·) := by
      intro f
      cases f <;> simp [Contract.generate, Contract.fileName, Flavor.suffixes, ModuleKind.name,
        Flavor.extension, String.append_assoc]
    simp only [Artifacts.files, Artifacts.linkedFiles, suffixesOf, List.map_append,
      List.map_flatMap, List.flatMap_map, List.map_cons, List.map_nil, hmodules]

/-- **What the files of a compilation are called**: there are two for each flavor and two more,
each with its own name, a stem with one of the fixed suffixes. -/
theorem Artifacts.files_named {source : String} {flavors : List Flavor} {prefixes : PrefixTable}
    {a : Artifacts} (h : compile source flavors prefixes = .ok a) (hflavors : flavors.Nodup) :
    a.files.length = 2 * flavors.length + 2 ∧ (a.files.map (·.name)).Nodup
      ∧ ∃ stem, IsStem stem ∧ ∀ f ∈ a.files, ∃ suffix ∈ fileSuffixes, f.name = stem ++ suffix := by
  obtain ⟨hcontract, hnames⟩ := names_files h
  refine ⟨?_, ?_, _, isStem_dashed (Contract.wellFormed_of_ofSource hcontract).name, ?_⟩
  · rw [← List.length_map (·.name), hnames, List.length_map, length_suffixesOf]
  · rw [hnames]
    exact (nodup_suffixesOf hflavors).map fun _ _ => (String.append_right_inj _).mp
  · intro f hf
    have hname : f.name ∈ a.files.map (·.name) := List.mem_map_of_mem hf
    rw [hnames] at hname
    obtain ⟨suffix, hmem, heq⟩ := List.mem_map.mp hname
    exact ⟨suffix, mem_fileSuffixes hmem, heq.symm⟩

/-! ## Flavors -/

namespace Arguments

theorem make_of_parseCommand {spec : CommandSpec} {arguments : List String} {g : Given}
    {command : Command} (h : parseCommand spec arguments = .ok (g, command)) :
    spec.make g = some command := by
  rw [parseCommand] at h
  obtain ⟨collected, -, h⟩ := andThen_eq_ok_iff.mp h
  obtain ⟨given, -, h⟩ := andThen_eq_ok_iff.mp h
  split at h
  · cases h
  · split at h
    · cases h
    · next made hmake =>
      obtain ⟨rfl, rfl⟩ := Prod.mk.inj (Except.ok.inj h)
      exact hmake

/-- The command of a call is one that some specification makes. -/
theorem exists_make_of_parse {arguments : List String} {call : Invocation}
    (h : parse arguments = .ok call) :
    ∃ spec ∈ commands, ∃ g, spec.make g = some call.command := by
  rw [parse] at h
  obtain ⟨collected, -, h⟩ := andThen_eq_ok_iff.mp h
  split at h
  · cases h
  · cases h
  · split at h
    · cases h
    · next spec hfind =>
      obtain ⟨⟨own, command⟩, hcommand, h⟩ := andThen_eq_ok_iff.mp h
      obtain ⟨shared, -, h⟩ := andThen_eq_ok_iff.mp h
      split at h
      · cases h
      · obtain rfl := Except.ok.inj h
        exact ⟨spec, List.mem_of_find?_eq_some hfind, own, make_of_parseCommand hcommand⟩

/-- Flavors that are asked for are those of a choice. -/
theorem exists_choice_of_make {spec : CommandSpec} (hspec : spec ∈ commands) {g : Given}
    {file out : String} {flavors : List Flavor}
    (h : spec.make g = some (.compile file out (some flavors))) :
    ∃ name, (name, flavors) ∈ flavorChoices := by
  simp only [commands, List.mem_cons, List.not_mem_nil, or_false] at hspec
  rcases hspec with rfl | rfl | rfl | rfl | rfl | rfl | rfl
  · obtain ⟨_, -, h⟩ := Option.bind_eq_some_iff.mp h
    obtain ⟨-, -, hflavors⟩ := Command.compile.inj (Option.some.inj h)
    obtain ⟨name, -, hname⟩ := Option.bind_eq_some_iff.mp hflavors
    exact ⟨name, Keyed.mem_of_get? hname⟩
  all_goals simp [Option.bind_eq_some_iff] at h

end Arguments

/-! ## Writing the files -/

namespace FileTree

variable {t t' : FileTree}

/-- **Files that are written into a directory** one after another. -/
inductive Writes (out : String) : List Generated.SourceFile → FileTree → FileTree → Prop where
  | nil (t : FileTree) : Writes out [] t t
  | cons {f : Generated.SourceFile} {rest : List Generated.SourceFile} {t t' t'' : FileTree}
      (head : t.writeText (Path.join out f.name) f.text = .ok t') (tail : Writes out rest t' t'') :
      Writes out (f :: rest) t t''

/-- One of the files cannot be written when its turn comes. -/
inductive WriteFails (out : String) : List Generated.SourceFile → FileTree → Complaint → Prop where
  | head {f : Generated.SourceFile} {rest : List Generated.SourceFile} {t : FileTree}
      {fault : FileFault} (h : t.writeText (Path.join out f.name) f.text = .error fault) :
      WriteFails out (f :: rest) t ⟨["writing " ++ Path.join out f.name, fault.text]⟩
  | tail {f : Generated.SourceFile} {rest : List Generated.SourceFile} {t t' : FileTree}
      {complaint : Complaint} (head : t.writeText (Path.join out f.name) f.text = .ok t')
      (h : WriteFails out rest t' complaint) : WriteFails out (f :: rest) t complaint

/-- **A fault of the file system**: the directory cannot be created, or one of the files in it
cannot be written. -/
inductive Refuses (out : String) (files : List Generated.SourceFile) (t : FileTree) :
    Complaint → Prop where
  | creating {fault : FileFault} (h : (t.createDirectory out).1 = .error fault) :
      Refuses out files t ⟨["creating " ++ out, fault.text]⟩
  | writing {complaint : Complaint} (hcreate : (t.createDirectory out).1 = .ok ())
      (h : WriteFails out files (t.createDirectory out).2 complaint) :
      Refuses out files t complaint

/-- Files that are written into a directory change only what is there under their names. -/
theorem Writes.frame {out : String} {files : List Generated.SourceFile} {d : Location}
    (h : Writes out files t t') (hnames : ∀ f ∈ files, Path.IsFileName f.name)
    (hd : t.directoryAt (start out) (Path.names out) = .ok d) :
    KeepsDirectories t t' ∧ ∀ l, (∀ f ∈ files, l ≠ d ++ [f.name]) → t'.get? l = t.get? l := by
  induction h with
  | nil t => exact ⟨fun _ hl => hl, fun _ _ => rfl⟩
  | @cons f rest t t₁ t' head tail ih =>
    rw [List.forall_mem_cons] at hnames
    obtain ⟨d', hd', hfile, rfl, -⟩ := writeText_join hnames.1 head
    obtain rfl := Except.ok.inj (hd.symm.trans hd')
    have hkeeps := keepsDirectories_put hfile (.file f.text)
    obtain ⟨hrest, hframe⟩ := ih hnames.2 (directoryAt_mono hkeeps hd)
    refine ⟨hkeeps.trans hrest, fun l hl => ?_⟩
    rw [List.forall_mem_cons] at hl
    rw [hframe l hl.2, get?_put_of_ne (Ne.symm hl.1)]

/-- Files with different names are all there in the end. -/
theorem Writes.get? {out : String} {files : List Generated.SourceFile} {d : Location}
    (h : Writes out files t t') (hnames : ∀ f ∈ files, Path.IsFileName f.name)
    (hnodup : (files.map (·.name)).Nodup)
    (hd : t.directoryAt (start out) (Path.names out) = .ok d) :
    ∀ f ∈ files, t'.get? (d ++ [f.name]) = some (.file f.text) := by
  induction h with
  | nil t => simp
  | @cons f rest t t₁ t' head tail ih =>
    rw [List.forall_mem_cons] at hnames
    rw [List.map_cons, List.nodup_cons] at hnodup
    obtain ⟨d', hd', hfile, rfl, -⟩ := writeText_join hnames.1 head
    obtain rfl := Except.ok.inj (hd.symm.trans hd')
    have hd' := directoryAt_mono (keepsDirectories_put hfile (.file f.text)) hd
    refine List.forall_mem_cons.mpr ⟨?_, ih hnames.2 hnodup.2 hd'⟩
    -- The later files have other names, so that none of them takes the place of the first.
    have hothers : ∀ g ∈ rest, d ++ [f.name] ≠ d ++ [g.name] := by
      intro g hg heq
      rw [List.append_cancel_left_eq, List.singleton_inj] at heq
      exact hnodup.1 (heq ▸ List.mem_map_of_mem hg)
    rw [(tail.frame hnames.2 hd').2 _ hothers, get?_put_self hfile]

/-- **Files have been written into a directory, and nothing else has happened**: the path leads to
a directory, which holds each of the files; all else is as it was, but for new directories where
the path and those of the directories above lead. -/
def WrittenInto (out : String) (files : List Generated.SourceFile) (t t' : FileTree) : Prop :=
  ∃ d, t'.locate out = .ok d ∧ t'.get? d = some .directory
    ∧ (∀ f ∈ files, t'.get? (d ++ [f.name]) = some (.file f.text))
    ∧ ∀ l, (∀ f ∈ files, l ≠ d ++ [f.name]) → t'.get? l = t.get? l
      ∨ t.get? l = none ∧ t'.get? l = some .directory
        ∧ ∃ path ∈ out :: Path.enclosing (Path.backwards out), t'.locate path = .ok l

/-- A directory is created, and files with plain and different names are written into it. -/
theorem Writes.writtenInto {out : String} {files : List Generated.SourceFile}
    (hcreate : (t.createDirectory out).1 = .ok ())
    (h : Writes out files (t.createDirectory out).2 t') (hne : files ≠ [])
    (hnames : ∀ f ∈ files, Path.IsFileName f.name) (hnodup : (files.map (·.name)).Nodup) :
    WrittenInto out files t t' := by
  have hout : out ≠ "" := by
    rintro rfl
    rw [createDirectory_empty] at hcreate
    cases hcreate
  have hd : ∃ d, (t.createDirectory out).2.directoryAt (start out) (Path.names out) = .ok d
      ∧ (t.createDirectory out).2.locate out = .ok d := by
    cases h with
    | nil => exact absurd rfl hne
    | cons head tail =>
      obtain ⟨d, hd, -, -, hlocate⟩ := writeText_join (hnames _ List.mem_cons_self) head
      exact ⟨d, hd, hlocate hout⟩
  obtain ⟨d, hd, hlocate⟩ := hd
  obtain ⟨hkeeps, hframe⟩ := h.frame hnames hd
  refine ⟨d, locate_mono hkeeps hlocate, hkeeps d (directoryAt_eq_ok_iff.mp hd).2,
    h.get? hnames hnodup hd, fun l hl => ?_⟩
  rw [hframe l hl]
  refine (addsDirectories_createDirectory t out l).imp_right ?_
  rintro ⟨hnone, hnew, path, hpath, hl'⟩
  exact ⟨hnone, hnew, path, hpath, locate_mono hkeeps hl'⟩

end FileTree

namespace Work

/-- Writing files either writes them all or complains about the first that cannot be written. -/
theorem perform_writeFiles (w : World) (out : String) (files : List Generated.SourceFile) :
    (∃ tree, FileTree.Writes out files w.tree tree ∧ w.perform (writeFiles out files)
      = (.ok (files.map fun f => Path.join out f.name), { w with tree }))
    ∨ ∃ complaint, FileTree.WriteFails out files w.tree complaint
      ∧ w.answer (writeFiles out files) = .error complaint := by
  induction files generalizing w with
  | nil => exact .inl ⟨w.tree, .nil _, rfl⟩
  | cons f rest ih =>
    rw [writeFiles, World.answer, World.perform_bind, perform_writeText]
    cases hwrite : w.tree.writeText (Path.join out f.name) f.text with
    | error fault => exact .inr ⟨_, .head hwrite, rfl⟩
    | ok tree =>
      rcases ih { w with tree } with ⟨tree', hrest, hperform⟩ | ⟨complaint, hrest, hanswer⟩
      · refine .inl ⟨tree', .cons hwrite hrest, ?_⟩
        simp only [World.perform_bind, hperform]
        rfl
      · exact .inr ⟨complaint, .tail hwrite hrest, answer_bind_of_error hanswer _⟩

/-- Printing at the end leaves the tree as it is. -/
theorem perform_report (w : World) (quiet : Bool) (lines : List String) :
    ∃ output, w.perform (if quiet = true then pure 0 else printLines lines >>= fun _ => pure 0)
      = (.ok 0, { w with output }) := by
  cases quiet with
  | true => exact ⟨w.output, rfl⟩
  | false =>
    refine ⟨w.output ++ printed lines, ?_⟩
    rw [if_neg Bool.false_ne_true, World.perform_bind, perform_printLines]
    rfl

/-- **What a compilation does** with what it has computed: all of it is written, or the file system
refuses. -/
theorem perform_compileFile {config : Config} {quiet : Bool} {file out source : String}
    {flavors : Option (List Flavor)} {a : Artifacts} {w : World}
    (hsource : w.tree.readText file = .ok source)
    (ha : compile source (config.selected flavors) config.prefixTable = .ok a) :
    (w.answer (compileFile config quiet file out flavors) = .ok 0
      ∧ (w.tree.createDirectory out).1 = .ok ()
      ∧ FileTree.Writes out a.files (w.tree.createDirectory out).2
        (w.after (compileFile config quiet file out flavors)).tree)
    ∨ ∃ complaint, FileTree.Refuses out a.files w.tree complaint
      ∧ w.answer (compileFile config quiet file out flavors) = .error complaint := by
  let w' : World := { w with tree := (w.tree.createDirectory out).2 }
  have hrun : w.perform (compileFile config quiet file out flavors)
      = w'.perform (orFault ("creating " ++ out) (w.tree.createDirectory out).1 >>= fun _ =>
          writeFiles out a.files >>= fun paths => if quiet = true then pure 0
            else printLines (compiledLines a.contract paths) >>= fun _ => pure 0) := by
    rw [compileFile, (isReading_readText file).perform_bind,
      answer_readText_eq_ok_iff.mpr hsource]
    rw [Config.selected] at ha
    simp only [ha]
    rfl
  cases hcreate : (w.tree.createDirectory out).1 with
  | error fault =>
    refine .inr ⟨_, .creating hcreate, ?_⟩
    rw [World.answer, hrun, hcreate]
    rfl
  | ok done =>
    have hwrite : w.perform (compileFile config quiet file out flavors)
        = w'.perform (writeFiles out a.files >>= fun paths => if quiet = true then pure 0
            else printLines (compiledLines a.contract paths) >>= fun _ => pure 0) := by
      rw [hrun, hcreate]
      rfl
    rcases perform_writeFiles w' out a.files with
      ⟨tree, hwrites, hperform⟩ | ⟨complaint, hfails, hanswer⟩
    · obtain ⟨output, hreport⟩ := perform_report { w with tree } quiet
        (compiledLines a.contract (a.files.map fun f => Path.join out f.name))
      rw [World.perform_bind, hperform] at hwrite
      have hdone := hwrite.trans hreport
      refine .inl ⟨congrArg Prod.fst hdone, rfl, ?_⟩
      rw [World.after, hdone]
      exact hwrites
    · refine .inr ⟨complaint, .writing hcreate hfails, ?_⟩
      rw [World.answer, hwrite]
      exact answer_bind_of_error hanswer _

end Work

namespace Invocation

/-- **What keeps a compilation from being computed**: the configuration cannot be loaded, the source
cannot be read or parsed, or it declares no interface. -/
inductive Obstructed (call : Invocation) (file : String) (w : World) : Prop where
  | configuration {complaint : Complaint}
      (h : w.answer (Work.loadConfig call.config) = .error complaint)
  | unreadable {fault : FileFault} (h : w.tree.readText file = .error fault)
  | unparsed {source : String} {e : ParseError} (h : w.tree.readText file = .ok source)
      (hparse : parse source = .error e)
  | noInterface {source : String} {definitions : List Definition}
      (h : w.tree.readText file = .ok source) (hparse : parse source = .ok definitions)
      (hnone : Definition.interfaces definitions = [])

variable {call : Invocation} {file out : String} {flavors : Option (List Flavor)} {w : World}

/-- Where nothing is in the way, there are artifacts. -/
theorem exists_artifacts (h : ¬ call.Obstructed file w) (flavors : Option (List Flavor)) :
    ∃ config source a, w.answer (Work.loadConfig call.config) = .ok config
      ∧ w.tree.readText file = .ok source
      ∧ compile source (config.selected flavors) config.prefixTable = .ok a := by
  cases hconfig : w.answer (Work.loadConfig call.config) with
  | error complaint => exact absurd (.configuration hconfig) h
  | ok config =>
    cases hsource : w.tree.readText file with
    | error fault => exact absurd (.unreadable hsource) h
    | ok source =>
      cases hparse : parse source with
      | error e => exact absurd (.unparsed hsource hparse) h
      | ok definitions =>
        cases hinterfaces : Definition.interfaces definitions with
        | nil => exact absurd (.noInterface hsource hparse hinterfaces) h
        | cons i rest =>
          refine ⟨config, source, ?_⟩
          simp only [compile, Contract.ofSource, hparse, Contract.build, hinterfaces]
          exact ⟨_, trivial, trivial, rfl⟩

/-- A call that compiles loads its configuration first. -/
theorem run_of_compile (hcommand : call.command = .compile file out flavors) :
    (call.run : Work (StateM World) Nat) = Work.loadConfig call.config >>= fun config =>
      Work.compileFile config call.quiet file out flavors := by
  rw [run, hcommand]
  rfl

/-- **Whatever is in the way, nothing has been done yet.** -/
theorem perform_of_obstructed (hcommand : call.command = .compile file out flavors)
    (h : call.Obstructed file w) : ∃ complaint, w.perform call.run = (.error complaint, w) := by
  rw [run_of_compile hcommand, (Work.isReading_loadConfig call.config).perform_bind]
  cases hconfig : w.answer (Work.loadConfig call.config) with
  | error complaint => exact ⟨complaint, rfl⟩
  | ok config =>
    simp only [Work.compileFile, (Work.isReading_readText file).perform_bind]
    cases hsource : w.answer (Work.readText file) with
    | error complaint => exact ⟨complaint, rfl⟩
    | ok source =>
      rw [Work.answer_readText_eq_ok_iff] at hsource
      have hcompile : ∃ e, compile source (flavors.getD [config.flavor.getD .typeScript])
          config.prefixTable = .error e := by
        cases h with
        | configuration h => simp [hconfig] at h
        | unreadable h => simp [hsource] at h
        | @unparsed source' e h hparse =>
          obtain rfl := Except.ok.inj (hsource.symm.trans h)
          exact ⟨.parse e, by simp only [compile, Contract.ofSource, hparse]⟩
        | noInterface h hparse hnone =>
          obtain rfl := Except.ok.inj (hsource.symm.trans h)
          refine ⟨.noInterface, ?_⟩
          simp only [compile, Contract.ofSource, hparse, Contract.build, hnone]
      obtain ⟨e, he⟩ := hcompile
      simp only [he]
      exact ⟨_, rfl⟩

/-- The flavors that a call is made in are different from each other. -/
theorem nodup_selected {arguments : List String} (h : Arguments.parse arguments = .ok call)
    (hcommand : call.command = .compile file out flavors) (config : Config) :
    (config.selected flavors).Nodup := by
  cases flavors with
  | none => exact List.nodup_singleton _
  | some flavors =>
    obtain ⟨spec, hspec, g, hmake⟩ := Arguments.exists_make_of_parse h
    rw [hcommand] at hmake
    obtain ⟨name, hchoice⟩ := Arguments.exists_choice_of_make hspec hmake
    have hall : ∀ choice ∈ Arguments.flavorChoices, choice.2.Nodup := by decide
    exact hall _ hchoice

/-- **A compilation stays in its directory, and one that cannot be computed does nothing.** If
something is in the way, the status is two and the world is as it was. If not, there are two files
for each flavor and two more, with different names, each a stem with one of the fixed suffixes.
They are written directly into the output directory, and nothing else changes but that directories
for it may be new, unless the file system refuses. -/
theorem compile_confined {arguments : List String} {call : Invocation} {file out : String}
    {flavors : Option (List Flavor)} (hcall : Arguments.parse arguments = .ok call)
    (hcommand : call.command = .compile file out flavors) (w : World) :
    (call.Obstructed file w → exitStatus (w.answer call.run) = 2 ∧ w.after call.run = w)
    ∧ (¬ call.Obstructed file w → ∃ config source a,
      w.answer (Work.loadConfig call.config) = .ok config
      ∧ w.tree.readText file = .ok source
      ∧ compile source (config.selected flavors) config.prefixTable = .ok a
      ∧ a.files.length = 2 * (config.selected flavors).length + 2
      ∧ (a.files.map (·.name)).Nodup
      ∧ (∃ stem, IsStem stem ∧ ∀ f ∈ a.files, ∃ suffix ∈ fileSuffixes, f.name = stem ++ suffix)
      ∧ (exitStatus (w.answer call.run) = 0
          ∧ FileTree.WrittenInto out a.files w.tree (w.after call.run).tree
        ∨ ∃ complaint, FileTree.Refuses out a.files w.tree complaint
          ∧ w.answer call.run = .error complaint)) := by
  refine ⟨fun h => ?_, fun h => ?_⟩
  · obtain ⟨complaint, hperform⟩ := perform_of_obstructed hcommand h
    rw [World.answer, World.after, hperform]
    exact ⟨rfl, rfl⟩
  · obtain ⟨config, source, a, hconfig, hsource, ha⟩ := exists_artifacts h flavors
    obtain ⟨hlength, hnodup, stem, hstem, hsuffix⟩ :=
      Artifacts.files_named ha (nodup_selected hcall hcommand config)
    refine ⟨config, source, a, hconfig, hsource, ha, hlength, hnodup, ⟨stem, hstem, hsuffix⟩, ?_⟩
    have hrun : w.perform call.run
        = w.perform (Work.compileFile config call.quiet file out flavors) := by
      rw [run_of_compile hcommand, (Work.isReading_loadConfig call.config).perform_bind, hconfig]
    have hne : a.files ≠ [] := List.ne_nil_of_length_pos (by omega)
    have hplain : ∀ f ∈ a.files, Path.IsFileName f.name := by
      intro f hf
      obtain ⟨suffix, hmem, heq⟩ := hsuffix f hf
      exact heq ▸ hstem.isFileName hmem
    rw [World.answer, World.after, hrun]
    rcases Work.perform_compileFile hsource ha with ⟨hanswer, hcreate, hwrites⟩ | hrefused
    · exact .inl ⟨congrArg exitStatus hanswer, hwrites.writtenInto hcreate hne hplain hnodup⟩
    · exact .inr hrefused

/-- Six files are written where both flavors are asked for. -/
theorem compile_confined_both_flavors :
    let w : World := ⟨.ofFiles [("a.idl", "interface HTTPServer \x7b void f(); \x7d;")], "", .epoch⟩
    ∃ (call : Invocation) (a : Artifacts),
      Arguments.parse ["compile", "a.idl", "--flavor", "all", "--out=gen"] = .ok call
      ∧ exitStatus (w.answer call.run) = 0 ∧ a.files.length = 6
      ∧ FileTree.WrittenInto "gen" a.files w.tree (w.after call.run).tree := by
  intro w
  let call : Invocation := ⟨none, false, .compile "a.idl" "gen" (some [.typeScript, .javaScript])⟩
  have hcall : Arguments.parse ["compile", "a.idl", "--flavor", "all", "--out=gen"] = .ok call := by
    with_unfolding_all rfl
  have hstatus : exitStatus (w.answer call.run) = 0 := by decide +kernel
  obtain ⟨hobstructed, hclear⟩ := compile_confined hcall rfl w
  have hfree : ¬ call.Obstructed "a.idl" w := by
    intro h
    have htwo := (hobstructed h).1
    rw [hstatus] at htwo
    cases htwo
  obtain ⟨config, source, a, -, -, -, hlength, -, -, hend⟩ := hclear hfree
  rcases hend with hdone | ⟨complaint, -, hanswer⟩
  · exact ⟨call, a, hcall, hstatus, hlength, hdone.2⟩
  · rw [hanswer] at hstatus
    cases hstatus

end Invocation

end IntentContract
