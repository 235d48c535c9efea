import IntentContract.Proofs.Files.World

/-!
# How a file tree changes

A path says where something is only in a tree, since each of its parts has to start from a
directory. What keeps paths from leading elsewhere is therefore that directories stay: if they do,
a path that could be followed leads where it led (`follow_mono`). All changes of a tree are of
that kind. Creating directories puts new ones where nothing was, each where one of the paths leads
that were asked for (`addsDirectories_createDirectory`). Writing a file puts a file where nothing
or a file was; for a plain name in a directory, that is the place of this name in the location the
directory's path leads to (`writeText_join`), whatever dots and slashes the path is written with.
-/

namespace IntentContract

/-! ## The parts of a path -/

namespace Path

theorem splitSlashes_append_slash (front back : List Char) :
    splitSlashes (front ++ '/' :: back) = splitSlashes front ++ splitSlashes back := by
  have hne : ∀ cs, splitSlashes cs ≠ [] := by
    intro cs
    fun_cases splitSlashes cs <;> simp
  induction front with
  | nil => rfl
  | cons c front ih =>
    rw [List.cons_append, splitSlashes, splitSlashes, ih]
    split
    · rfl
    · cases hfront : splitSlashes front with
      | nil => exact absurd hfront (hne front)
      | cons part parts => rfl

theorem splitSlashes_of_not_mem {cs : List Char} (h : '/' ∉ cs) : splitSlashes cs = [cs] := by
  induction cs with
  | nil => rfl
  | cons c cs ih =>
    rw [List.mem_cons, not_or] at h
    rw [splitSlashes, if_neg (Ne.symm h.1), ih h.2]

/-- The parts of a path that are not empty. -/
def names (path : String) : List String :=
  (parts path).filter (· != "")

/-- **A name that a file can have**: a single part of a path that leads neither to the directory
itself nor to the one above. -/
structure IsFileName (name : String) : Prop where
  slash : '/' ∉ name.toList
  ne_empty : name ≠ ""
  ne_dot : name ≠ "."
  ne_dots : name ≠ ".."

theorem parts_of_no_slash {name : String} (h : '/' ∉ name.toList) : parts name = [name] := by
  rw [parts, splitSlashes_of_not_mem h, List.map_singleton, String.ofList_toList]

theorem parts_append_slash (front back : String) :
    parts (front ++ "/" ++ back) = parts front ++ parts back := by
  have hchars : (front ++ "/" ++ back).toList = front.toList ++ '/' :: back.toList := by simp
  rw [parts, hchars, splitSlashes_append_slash, List.map_append]
  rfl

theorem isAbsolute_of_no_slash {name : String} (h : '/' ∉ name.toList) :
    isAbsolute name = false := by
  rw [isAbsolute, beq_eq_false_iff_ne]
  exact fun hhead => h (List.mem_of_head? hhead)

/-- A directory that ends in a slash, without it. -/
theorem exists_of_endsInSlash {directory : String} (h : endsInSlash directory = true) :
    ∃ front, directory = front ++ "/" := by
  obtain ⟨front, hfront⟩ := List.getLast?_eq_some_iff.mp (beq_iff_eq.mp h)
  refine ⟨String.ofList front, String.toList_inj.mp ?_⟩
  rw [hfront, String.toList_append, String.toList_ofList]
  rfl

/-- A name within a directory is one part more. -/
theorem names_join {directory name : String} (h : IsFileName name) :
    names (join directory name) = names directory ++ [name] := by
  have hname : (parts name).filter (· != "") = [name] := by
    rw [parts_of_no_slash h.slash]
    simp [h.ne_empty]
  rw [names, names, join, isAbsolute_of_no_slash h.slash, Bool.false_or]
  split
  · next hempty =>
    rw [decide_eq_true_eq] at hempty
    rw [hname, hempty]
    rfl
  · split
    · next hslash =>
      obtain ⟨front, rfl⟩ := exists_of_endsInSlash hslash
      have hfront : parts (front ++ "/") = parts front ++ [""] := by
        have := parts_append_slash front ""
        rwa [String.append_empty] at this
      rw [parts_append_slash, hfront, List.filter_append, List.filter_append, hname]
      simp
    · rw [parts_append_slash, List.filter_append, hname]

/-- What is within a directory has a path that starts with the directory's. -/
theorem exists_join_eq_append {directory name : String} (h : IsFileName name)
    (hne : directory ≠ "") : ∃ rest, join directory name = directory ++ rest := by
  rw [join, isAbsolute_of_no_slash h.slash, Bool.false_or, if_neg (by simpa using hne)]
  split
  · exact ⟨name, rfl⟩
  · exact ⟨"/" ++ name, String.append_assoc ..⟩

end Path

namespace FileTree

variable {t t' t'' : FileTree}

/-! ## Single entries -/

theorem find?_putInto (l l' : Location) (entry : Entry) (es : List (Location × Entry)) :
    (putInto l entry es).find? (fun e => e.1 == l')
      = if l = l' then some (l, entry) else es.find? fun e => e.1 == l' := by
  induction es with
  | nil => by_cases h : l = l' <;> simp [putInto, h]
  | cons e es ih =>
    rw [putInto]
    by_cases he : e.1 = l
    · by_cases h : l = l' <;> simp [he, h]
    · rw [if_neg he, List.find?_cons, List.find?_cons, ih]
      by_cases h : e.1 = l'
      · have hne : l ≠ l' := fun heq => he (h.trans heq.symm)
        simp [h, hne]
      · rw [beq_false_of_ne h]

/-- **What is where after an entry has been put somewhere.** The landmarks are always there. -/
theorem get?_put (t : FileTree) (l l' : Location) (entry : Entry) :
    (t.put l entry).get? l' = if l'.all isLandmark then some .directory
      else if l = l' then some entry else t.get? l' := by
  rw [get?, get?, put, find?_putInto]
  by_cases hmark : l'.all isLandmark = true
  · simp [hmark]
  · by_cases hl : l = l' <;> simp [hmark, hl]

theorem get?_put_of_ne {l l' : Location} (h : l ≠ l') (entry : Entry) :
    (t.put l entry).get? l' = t.get? l' := by
  rw [get?_put, if_neg h]
  split
  · next hmark => rw [get?, if_pos hmark]
  · rfl

/-- Where there is no directory, there is no landmark. -/
theorem get?_put_self {l : Location} (h : t.get? l ≠ some .directory) (entry : Entry) :
    (t.put l entry).get? l = some entry := by
  have hmark : ¬ l.all isLandmark = true := fun hmark => h (by rw [get?, if_pos hmark])
  rw [get?_put, if_neg hmark, if_pos rfl]

/-! ## Paths lead where they led -/

/-- **A change that leaves directories where they are.** -/
def KeepsDirectories (t t' : FileTree) : Prop :=
  ∀ l, t.get? l = some .directory → t'.get? l = some .directory

theorem KeepsDirectories.trans (h : KeepsDirectories t t') (h' : KeepsDirectories t' t'') :
    KeepsDirectories t t'' :=
  fun l hl => h' l (h l hl)

theorem keepsDirectories_put {l : Location} (h : t.get? l ≠ some .directory) (entry : Entry) :
    KeepsDirectories t (t.put l entry) := by
  intro l' hl'
  have hne : l ≠ l' := fun heq => h (heq ▸ hl')
  rw [get?_put_of_ne hne, hl']

/-- A part is followed from a directory. -/
theorem follow_cons_eq_ok_iff {l l' : Location} {part : String} {rest : List String} :
    t.follow l (part :: rest) = .ok l' ↔ t.get? l = some .directory
      ∧ ∃ next, step? l part = .ok next ∧ t.follow next rest = .ok l' := by
  rw [follow]
  cases t.get? l with
  | none => simp
  | some entry =>
    cases entry with
    | file text => simp
    | directory => simpa using andThen_eq_ok_iff

theorem follow_append_eq_ok_iff {l l' : Location} {front back : List String} :
    t.follow l (front ++ back) = .ok l'
      ↔ ∃ next, t.follow l front = .ok next ∧ t.follow next back = .ok l' := by
  induction front generalizing l with
  | nil => simp [follow]
  | cons part front ih =>
    simp only [List.cons_append, follow_cons_eq_ok_iff, ih]
    constructor
    · rintro ⟨hl, next, hstep, mid, hfront, hback⟩
      exact ⟨mid, ⟨hl, next, hstep, hfront⟩, hback⟩
    · rintro ⟨mid, ⟨hl, next, hstep, hfront⟩, hback⟩
      exact ⟨hl, next, hstep, mid, hfront, hback⟩

/-- **A path that could be followed can still be followed.** -/
theorem follow_mono (h : KeepsDirectories t t') {l l' : Location} {parts : List String}
    (hl : t.follow l parts = .ok l') : t'.follow l parts = .ok l' := by
  induction parts generalizing l with
  | nil => exact hl
  | cons part rest ih =>
    obtain ⟨hdirectory, next, hstep, hrest⟩ := follow_cons_eq_ok_iff.mp hl
    exact follow_cons_eq_ok_iff.mpr ⟨h l hdirectory, next, hstep, ih hrest⟩

theorem locate_eq_ok_iff {path : String} {l : Location} :
    t.locate path = .ok l ↔ ∃ parts, partsOf path = .ok parts
      ∧ t.follow (start path) parts = .ok l := by
  rw [locate]
  exact andThen_eq_ok_iff

theorem locate_mono (h : KeepsDirectories t t') {path : String} {l : Location}
    (hl : t.locate path = .ok l) : t'.locate path = .ok l := by
  obtain ⟨parts, hparts, hfollow⟩ := locate_eq_ok_iff.mp hl
  exact locate_eq_ok_iff.mpr ⟨parts, hparts, follow_mono h hfollow⟩

theorem directoryAt_eq_ok_iff {l l' : Location} {parts : List String} :
    t.directoryAt l parts = .ok l'
      ↔ t.follow l parts = .ok l' ∧ t.get? l' = some .directory := by
  rw [directoryAt, andThen_eq_ok_iff]
  constructor
  · rintro ⟨next, hfollow, h⟩
    split at h
    · next hdirectory =>
      obtain rfl := Except.ok.inj h
      exact ⟨hfollow, hdirectory⟩
    · cases h
    · cases h
  · rintro ⟨hfollow, hdirectory⟩
    exact ⟨l', hfollow, by rw [hdirectory]⟩

theorem directoryAt_mono (h : KeepsDirectories t t') {l l' : Location} {parts : List String}
    (hl : t.directoryAt l parts = .ok l') : t'.directoryAt l parts = .ok l' := by
  obtain ⟨hfollow, hdirectory⟩ := directoryAt_eq_ok_iff.mp hl
  exact directoryAt_eq_ok_iff.mpr ⟨follow_mono h hfollow, h l' hdirectory⟩

/-- What leads to a directory starts from one. -/
theorem get?_of_follow {l l' : Location} {parts : List String} (h : t.follow l parts = .ok l')
    (hl' : t.get? l' = some .directory) : t.get? l = some .directory := by
  cases parts with
  | nil =>
    obtain rfl := Except.ok.inj h
    exact hl'
  | cons part rest => exact (follow_cons_eq_ok_iff.mp h).1

/-- Empty parts do not matter on the way to a directory. -/
theorem follow_of_filter {l l' : Location} {parts : List String}
    (h : t.follow l (parts.filter (· != "")) = .ok l') (hl' : t.get? l' = some .directory) :
    t.follow l parts = .ok l' := by
  induction parts generalizing l with
  | nil => exact h
  | cons part rest ih =>
    by_cases hpart : part = ""
    · subst hpart
      exact follow_cons_eq_ok_iff.mpr ⟨get?_of_follow h hl', l, rfl, ih h⟩
    · rw [List.filter_cons_of_pos (by simpa using hpart)] at h
      obtain ⟨hl, next, hstep, hrest⟩ := follow_cons_eq_ok_iff.mp h
      exact follow_cons_eq_ok_iff.mpr ⟨hl, next, hstep, ih hrest⟩

/-! ## Paths that can be followed -/

theorem partsOf_eq_ok_iff {path : String} {parts : List String} :
    partsOf path = .ok parts ↔ (∀ c ∈ path.toList, c.toNat ≠ 0) ∧ path.utf8ByteSize ≤ maxPath
      ∧ path ≠ "" ∧ Path.parts path = parts := by
  have hnull : (path.toList.any fun c => c.toNat == 0) = true
      ↔ ¬ ∀ c ∈ path.toList, c.toNat ≠ 0 := by
    simp
  rw [partsOf]
  split
  · next h => simp [hnull.mp h]
  · next h =>
    rw [hnull, Decidable.not_not] at h
    split
    · next hlong => simp [Nat.not_le.mpr hlong]
    · next hshort =>
      split
      · next hempty => simp [hempty]
      · next hne =>
        rw [Except.ok.injEq]
        exact ⟨fun heq => ⟨h, Nat.not_lt.mp hshort, hne, heq⟩, fun hpath => hpath.2.2.2⟩

/-- A directory is found at its own path if something within it is. -/
theorem partsOf_of_join {directory name : String} (h : Path.IsFileName name)
    (hne : directory ≠ "") {parts : List String}
    (hparts : partsOf (Path.join directory name) = .ok parts) :
    partsOf directory = .ok (Path.parts directory) := by
  obtain ⟨hchars, hsize, -, -⟩ := partsOf_eq_ok_iff.mp hparts
  obtain ⟨rest, hjoin⟩ := Path.exists_join_eq_append h hne
  rw [hjoin, String.toList_append] at hchars
  rw [hjoin, String.utf8ByteSize_append] at hsize
  exact partsOf_eq_ok_iff.mpr ⟨fun c hc => hchars c (List.mem_append_left _ hc),
    Nat.le_trans (Nat.le_add_right _ _) hsize, hne, rfl⟩

theorem start_join {directory name : String} (h : Path.IsFileName name) :
    start (Path.join directory name) = start directory := by
  by_cases hne : directory = ""
  · subst hne
    rw [Path.join, Path.isAbsolute_of_no_slash h.slash, start,
      if_neg (by simp [Path.isAbsolute_of_no_slash h.slash])]
    rfl
  · obtain ⟨rest, hjoin⟩ := Path.exists_join_eq_append h hne
    have habsolute : Path.isAbsolute (directory ++ rest) = Path.isAbsolute directory := by
      obtain ⟨c, cs, hcs⟩ := List.exists_cons_of_ne_nil (mt String.toList_eq_nil_iff.mp hne)
      rw [Path.isAbsolute, Path.isAbsolute, String.toList_append, hcs]
      rfl
    rw [hjoin, start, start, habsolute]

/-- The place of something that is no dot: its last part, in the directory of the others. -/
theorem place_eq_ok {path last : String} {d : Location} (h : t.place path = .ok (d, last))
    (hlast : isDots last = false) :
    partsOf path = .ok (Path.parts path) ∧ ∃ front, Path.names path = front ++ [last]
      ∧ t.directoryAt (start path) front = .ok d := by
  rw [place] at h
  obtain ⟨parts, hparts, h⟩ := andThen_eq_ok_iff.mp h
  obtain rfl := (partsOf_eq_ok_iff.mp hparts).2.2.2
  refine ⟨hparts, ?_⟩
  split at h
  · obtain ⟨-, rfl⟩ := Prod.mk.inj (Except.ok.inj h)
    cases hlast
  · next last' front hnames =>
    obtain ⟨d', hd, h⟩ := andThen_eq_ok_iff.mp h
    obtain ⟨rfl, rfl⟩ := Prod.mk.inj (Except.ok.inj h)
    refine ⟨front.reverse, ?_, hd⟩
    rw [Path.names, ← List.reverse_reverse (List.filter _ _), hnames, List.reverse_cons]

/-! ## Creating directories -/

/-- **A change by new directories**, each where one of the paths leads. -/
def AddsDirectories (paths : List String) (t t' : FileTree) : Prop :=
  ∀ l, t'.get? l = t.get? l ∨ t.get? l = none ∧ t'.get? l = some .directory
    ∧ ∃ path ∈ paths, t'.locate path = .ok l

theorem AddsDirectories.refl (paths : List String) (t : FileTree) : AddsDirectories paths t t :=
  fun _ => .inl rfl

theorem AddsDirectories.keepsDirectories {paths : List String} (h : AddsDirectories paths t t') :
    KeepsDirectories t t' := by
  intro l hl
  rcases h l with heq | ⟨hnone, -, -⟩
  · rw [heq, hl]
  · rw [hnone] at hl
    cases hl

theorem AddsDirectories.mono {paths more : List String} (h : AddsDirectories paths t t')
    (hsub : paths ⊆ more) : AddsDirectories more t t' := by
  intro l
  refine (h l).imp_right ?_
  rintro ⟨hnone, hnew, path, hpath, hlocate⟩
  exact ⟨hnone, hnew, path, hsub hpath, hlocate⟩

theorem AddsDirectories.trans {paths : List String} (h : AddsDirectories paths t t')
    (h' : AddsDirectories paths t' t'') : AddsDirectories paths t t'' := by
  intro l
  rcases h' l with heq' | ⟨hnone', hnew'⟩
  · rcases h l with heq | ⟨hnone, hnew, path, hpath, hlocate⟩
    · exact .inl (heq'.trans heq)
    · exact .inr ⟨hnone, heq'.trans hnew, path, hpath, locate_mono h'.keepsDirectories hlocate⟩
  · rcases h l with heq | ⟨-, hnew, -⟩
    · exact .inr ⟨heq ▸ hnone', hnew'⟩
    · rw [hnew] at hnone'
      cases hnone'

/-- A single directory that is created is new, and its path leads to it. -/
theorem createOne_eq_ok {path : String} (h : t.createOne path = .ok t') :
    ∃ l, t.get? l = none ∧ t' = t.put l .directory ∧ t'.locate path = .ok l := by
  rw [createOne] at h
  obtain ⟨⟨d, last⟩, hplace, h⟩ := andThen_eq_ok_iff.mp h
  dsimp only at h
  split at h
  · cases h
  · next hdots =>
    obtain ⟨l, hstep, h⟩ := andThen_eq_ok_iff.mp h
    split at h
    · cases h
    · next hnone =>
      obtain rfl := Except.ok.inj h
      have hnew : t.get? l ≠ some .directory := by simp [hnone]
      have hkeeps := keepsDirectories_put hnew .directory
      obtain ⟨hparts, front, hnames, hfront⟩ := place_eq_ok hplace (by simpa using hdots)
      obtain ⟨hfollow, hdirectory⟩ := directoryAt_eq_ok_iff.mp (directoryAt_mono hkeeps hfront)
      refine ⟨l, hnone, rfl, locate_eq_ok_iff.mpr ⟨_, hparts, ?_⟩⟩
      refine follow_of_filter ?_ (get?_put_self hnew .directory)
      rw [← Path.names, hnames]
      refine follow_append_eq_ok_iff.mpr ⟨d, hfollow, ?_⟩
      exact follow_cons_eq_ok_iff.mpr ⟨hdirectory, l, hstep, rfl⟩

theorem addsDirectories_created (t : FileTree) (path : String) :
    AddsDirectories [path] t (t.created path (t.createOne path)).2 := by
  cases h : t.createOne path with
  | error fault => exact .refl _ t
  | ok t' =>
    obtain ⟨l, hnone, rfl, hlocate⟩ := createOne_eq_ok h
    intro l'
    by_cases hl : l = l'
    · subst hl
      have hnew := get?_put_self (t := t) (l := l) (by simp [hnone]) .directory
      exact .inr ⟨hnone, hnew, path, List.mem_singleton_self path, hlocate⟩
    · exact .inl (get?_put_of_ne hl .directory)

/-- Creating several directories adds directories, even if a later step fails. -/
theorem addsDirectories_createAll (t : FileTree) (paths : List String) :
    AddsDirectories paths t (t.createAll paths).2 := by
  induction paths generalizing t with
  | nil => exact .refl _ t
  | cons path outer ih =>
    have hcreated : ∀ t : FileTree,
        AddsDirectories (path :: outer) t (t.created path (t.createOne path)).2 :=
      fun t => (addsDirectories_created t path).mono (by simp)
    have houter := (ih t).mono (List.subset_cons_self path outer)
    rw [createAll]
    split
    · split
      · next heq =>
        rw [heq] at houter
        exact houter.trans (hcreated _)
      · next heq =>
        rw [heq] at houter
        exact houter
    · exact hcreated t

/-- **Creating a directory** adds directories, at the places of its path and of those above. -/
theorem addsDirectories_createDirectory (t : FileTree) (path : String) :
    AddsDirectories (path :: Path.enclosing (Path.backwards path)) t
      (t.createDirectory path).2 :=
  addsDirectories_createAll t _

/-- The empty path is none of a directory. -/
theorem createDirectory_empty (t : FileTree) : (t.createDirectory "").1 = .error .notFound :=
  rfl

/-! ## Writing files -/

/-- A plain name leads one step further. -/
theorem step?_eq_ok {d l : Location} {name : String} (hname : Path.IsFileName name)
    (h : step? d name = .ok l) : l = d ++ [name] := by
  have hidle : Path.isIdle name = false := by
    simp [Path.isIdle, hname.ne_empty, hname.ne_dot]
  rw [step?, if_neg (by simp [hidle]), if_neg hname.ne_dots] at h
  split at h
  · cases h
  · exact (Except.ok.inj h).symm

/-- **A file with a plain name is written into the directory that a path leads to.** -/
theorem writeText_join {directory name text : String} (hname : Path.IsFileName name)
    (h : t.writeText (Path.join directory name) text = .ok t') :
    ∃ d, t.directoryAt (start directory) (Path.names directory) = .ok d
      ∧ t.get? (d ++ [name]) ≠ some .directory ∧ t' = t.put (d ++ [name]) (.file text)
      ∧ (directory ≠ "" → t.locate directory = .ok d) := by
  rw [writeText] at h
  obtain ⟨⟨d, last⟩, hplace, h⟩ := andThen_eq_ok_iff.mp h
  dsimp only at h
  split at h
  · cases h
  · next hdots =>
    rw [Bool.or_eq_true, not_or] at hdots
    obtain ⟨hparts, front, hnames, hfront⟩ := place_eq_ok hplace (by simpa using hdots.1)
    rw [Path.names_join hname] at hnames
    obtain ⟨rfl, hlast⟩ := List.append_inj' hnames rfl
    obtain rfl := List.singleton_inj.mp hlast
    rw [start_join hname] at hfront
    obtain ⟨l, hstep, h⟩ := andThen_eq_ok_iff.mp h
    obtain rfl := step?_eq_ok hname hstep
    split at h
    · cases h
    · next hfile =>
      refine ⟨d, hfront, hfile, (Except.ok.inj h).symm, fun hne => ?_⟩
      obtain ⟨hfollow, hdirectory⟩ := directoryAt_eq_ok_iff.mp hfront
      exact locate_eq_ok_iff.mpr
        ⟨_, partsOf_of_join hname hne hparts, follow_of_filter hfollow hdirectory⟩

end FileTree

end IntentContract
