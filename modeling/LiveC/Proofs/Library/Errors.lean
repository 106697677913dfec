import Mathlib.Data.List.Induction
import LiveC.Contract
import LiveC.Proofs.Library.Closing
import LiveC.Proofs.Library.Probing
import LiveC.Proofs.Library.Registry
import LiveC.Proofs.Symbol.Trampolines
/-!
# What the library routines say about their failures

Compiled code opens libraries, finds names in them, closes them, and asks why the last of this
failed. `LibraryCall.runAll` makes a list of such calls and keeps each with its reply. What the
engine still has to say after them can be read off the calls and replies: `LibraryCall.untold` goes
back to the last question and takes the last failure since. One call changes it as it should
(`LibraryCall.run_spec`), and so do all of them, which also shows that a failure is told once at
most (`LibraryCall.runAll_spec`).

What the engine says of a library that does not open ends with the loader's reason for the last
file name that was tried (`World.openReason`), which no call changes. No call closes a library that
is tracked (`World.Stands`), whichever others are opened and closed meanwhile. `loaderError_tells`
puts this together.
-/

namespace LiveC

variable {σ : Type}

/-- The host image stays where it was tracked first. -/
theorem Registry.hostHandle?_of_prefix {r r' : Registry} {host : Address}
    (h : r.entries <+: r'.entries) (hhost : r.hostHandle? = some host) :
    r'.hostHandle? = some host := by
  obtain ⟨further, hfurther⟩ := h
  obtain ⟨e, he, rfl⟩ := Option.map_eq_some_iff.1 hhost
  rw [hostHandle?, ← hfurther, List.find?_append, he]
  rfl

/-! ## What every call keeps -/

/-- The loader's reason why no library opens under a name: its text for the last of the file names
that the name may mean. -/
def World.openReason (w : World σ) (mode : OpenMode) (name : String) : String :=
  w.linkage.loader.texts.notOpened w.files (w.linkage.openMode mode)
    ((libraryCandidates w.linkage.platform name).getLastD name)

/-- From one world to another the engine stays installed, what is tracked stays tracked, the tracked
libraries are kept, and what does not open does not open for the same reason. -/
structure World.Stands (w w' : World σ) : Prop where
  installed : w'.installed = w.installed
  entries : w.linkage.registry.entries <+: w'.linkage.registry.entries
  loader : ∀ handle, w.linkage.registry.contains handle = true →
    w.linkage.loader.Keeps handle w'.linkage.loader
  reason : w'.openReason = w.openReason

namespace World.Stands

variable {w w' w'' : World σ} {handle : Address}

theorem of_eq (hinstalled : w'.installed = w.installed)
    (hregistry : w'.linkage.registry = w.linkage.registry)
    (hlibc : w'.linkage.loader.libc = w.linkage.loader.libc)
    (hlibraries : w'.linkage.loader.libraries = w.linkage.loader.libraries)
    (htexts : w'.linkage.loader.texts = w.linkage.loader.texts)
    (hreason : w'.openReason = w.openReason) : w.Stands w' :=
  ⟨hinstalled, hregistry ▸ List.prefix_rfl, fun _ _ => .of_eq htexts hlibc hlibraries, hreason⟩

theorem refl (w : World σ) : w.Stands w := .of_eq rfl rfl rfl rfl rfl rfl

theorem contains (h : w.Stands w') (hhandle : w.linkage.registry.contains handle = true) :
    w'.linkage.registry.contains handle = true := by
  obtain ⟨e, he, heq⟩ := List.any_eq_true.1 hhandle
  exact List.any_eq_true.2 ⟨e, h.entries.subset he, heq⟩

theorem trans (h : w.Stands w') (h' : w'.Stands w'') : w.Stands w'' where
  installed := h'.installed.trans h.installed
  entries := h.entries.trans h'.entries
  loader handle hhandle := (h.loader handle hhandle).trans (h'.loader handle (h.contains hhandle))
  reason := h'.reason.trans h.reason

theorem hostHandle? (h : w.Stands w') {host : Address}
    (hhost : w.linkage.registry.hostHandle? = some host) :
    w'.linkage.registry.hostHandle? = some host :=
  Registry.hostHandle?_of_prefix h.entries hhost

end World.Stands

/-- A library is opened and recorded, or no library opens under its name. -/
theorem Linkage.openLibraryWith_cases (k : Linkage) (files : FileTree) (mode : OpenMode)
    (name : String) :
    k.openLibraryWith files mode name = (.error (.platform (.cannotOpenLibrary name
      (some (k.loader.texts.notOpened files (k.openMode mode)
        ((libraryCandidates k.platform name).getLastD name))))), k.settled) ∨
    ∃ handle warnings loader, k.openLibraryWith files mode name = (.ok (handle, warnings),
        { k with loader := loader, registry := k.registry.record name handle }) ∧
      ∀ tracked, k.loader.Keeps tracked loader := by
  rw [Linkage.openLibraryWith, Linkage.openIn]
  cases hopen : openProbing k.platform k.loader files (k.openMode mode) name with
  | error e =>
    rw [openProbing] at hopen
    split at hopen
    · simp at hopen
    · obtain rfl := Except.error.inj hopen
      exact .inl (by rw [getLast?_libraryCandidates, Option.map_some])
  | ok opened =>
    obtain ⟨handle, loader⟩ := opened
    exact .inr ⟨handle, _, _, rfl, fun tracked =>
      (Loader.Keeps.of_openProbing hopen).trans (.of_eq rfl rfl rfl)⟩

theorem World.linkage_warnAll (w : World σ) (warnings : List Warning) :
    (w.warnAll warnings).linkage = w.linkage := by
  obtain ⟨errors, h⟩ := w.exists_warnAll_eq warnings
  rw [h]

/-- Preloading libraries only adds to what is tracked. -/
theorem Linkage.entries_preload (k : Linkage) (files : FileTree) (names : List String) :
    k.registry.entries <+: (k.preload files names).2.registry.entries := by
  induction names generalizing k with
  | nil => exact List.prefix_rfl
  | cons name names ih =>
    exact (k.entries_tracked [.openLibrary files name]).trans (ih (k.openLibrary files name).2)

/-- An engine that was started tracks the host image. -/
theorem Engine.isSome_hostHandle?_launch {config : Config} {w w' : World σ}
    (h : launch config w = (.ok (), w')) : w'.linkage.registry.hostHandle?.isSome := by
  rw [launch] at h
  generalize Binding.load .host config w.linkage.loader w.files = loaded at h
  obtain ⟨binding, loader⟩ := loaded
  cases binding with
  | error fault => simp at h
  | ok binding =>
    dsimp only at h
    have hmake : (Linkage.make .host loader config.foreign).1.registry.hostHandle? =
        some Loader.hostHandle := by cases config.foreign <;> rfl
    generalize Linkage.make .host loader config.foreign = made at h hmake
    obtain ⟨k, warnings⟩ := made
    have hpreload := Registry.hostHandle?_of_prefix
      (k.entries_preload w.files config.hostLibraries) hmake
    obtain ⟨-, rfl⟩ := Prod.mk.inj h
    rw [World.linkage_warnAll, World.linkage_warnAll, hpreload]
    rfl

/-! ## The routines -/

namespace Contract

/-- A text as compiled code gets it: a C text cannot hold a NUL. -/
def cText (text : String) : String :=
  String.ofList (text.toList.map fun c => if c == '\x00' then ' ' else c)

/-- What the engine says when no library opens under a name, for a reason of the loader's. -/
def cannotOpen (name reason : String) : String :=
  cText ("platform error: " ++ ("cannot open library '" ++ name ++ "': " ++ reason))

/-- What the engine says when a name is not found. -/
def cannotFind (name : String) : String := cText ("undefined symbol: " ++ name)

variable {w : World σ} {name : String} {mode : OpenMode} {handle : Address}

/-- The engine opens a library, or says that it cannot; what is tracked stays. -/
theorem openLibraryWith_cases (mode : OpenMode) (name : String) (w : World σ) :
    ∃ w', w.Stands w' ∧ w'.complaint = w.complaint ∧
      (Engine.openLibraryWith mode name w =
          (.error (.platform (.cannotOpenLibrary name (some (w.openReason mode name)))), w') ∨
        ∃ handle, Engine.openLibraryWith mode name w = (.ok handle, w')) := by
  rcases w.linkage.openLibraryWith_cases w.files mode name with
    hopen | ⟨handle, warnings, loader, hopen, hkeeps⟩
  · refine ⟨{ w with linkage := w.linkage.settled }, .of_eq rfl rfl rfl rfl rfl rfl, rfl, .inl ?_⟩
    rw [Engine.openLibraryWith, Engine.opening, hopen]
    rfl
  · obtain ⟨errors, herrors⟩ := World.exists_warnAll_eq { w with linkage :=
      { w.linkage with
        loader := loader, registry := w.linkage.registry.record name handle } } warnings
    refine ⟨{ w with
      linkage := { w.linkage with
        loader := loader, registry := w.linkage.registry.record name handle }
      errors := errors }, ⟨rfl, ?_, fun tracked _ => hkeeps tracked, ?_⟩, rfl, .inr ⟨handle, ?_⟩⟩
    · rw [Registry.entries_record]
      exact List.prefix_append _ _
    · funext mode name
      exact congrArg (fun texts : LoaderTexts => texts.notOpened _ _ _) (hkeeps 0).texts
    · rw [Engine.openLibraryWith, Engine.opening, hopen]
      exact congrArg (Except.ok handle, ·) herrors

/-- Looking a name up changes no library. -/
theorem stands_resolveIn (handle : Address) (name : String) (w : World σ) :
    w.Stands { w with linkage := (w.linkage.resolveIn handle name).2 } := by
  obtain ⟨cache, emitted, code, pending, hframe⟩ : ∃ cache emitted code pending,
      (w.linkage.resolveIn handle name).2 = { w.linkage with
        bridge := { w.linkage.bridge with cache := cache, emitted := emitted }
        code := code
        loader := { w.linkage.loader with pending := pending } } := by
    unfold Linkage.resolveIn
    split
    · exact ⟨_, _, _, _, rfl⟩
    split
    · exact ⟨_, _, _, none, rfl⟩
    · next function _ =>
      obtain ⟨cache, emitted, code, h⟩ := w.linkage.settled.wrapped_frame handle function
      exact ⟨cache, emitted, code, none, h⟩
  rw [hframe]
  exact .of_eq rfl rfl rfl rfl rfl rfl

/-- The host image is opened by its handle. -/
theorem openLibrary_none (hw : w.installed = true) (mode : OpenMode) :
    openLibrary none mode w = (.ok w.linkage.registry.hostHandle?, w) := by
  rw [openLibrary, Attempt.bind_of_ok (x := .state) rfl, if_pos hw]
  rfl

theorem openLibrary_some (hw : w.installed = true) (name : String) (mode : OpenMode) :
    ∃ found w', openLibrary (some name) mode w = (.ok found, w') ∧ w.Stands w' ∧
      w'.complaint =
        if found = none then some (cannotOpen name (w.openReason mode name)) else w.complaint := by
  obtain ⟨w', hstands, hcomplaint, hfailed | ⟨handle, hopened⟩⟩ := openLibraryWith_cases mode name w
  · have hcapture : (Engine.openLibraryWith mode name).capture w =
        (.ok (.error (.platform (.cannotOpenLibrary name (some (w.openReason mode name))))),
          w') := by
      rw [Attempt.capture, hfailed]
    refine ⟨none, { w' with complaint := some (cannotOpen name (w.openReason mode name)) }, ?_,
      hstands.trans (.of_eq rfl rfl rfl rfl rfl rfl), by rw [if_pos rfl]⟩
    rw [openLibrary, Attempt.bind_of_ok (x := .state) rfl, if_pos hw]
    exact Attempt.bind_of_ok hcapture _
  · have hcapture : (Engine.openLibraryWith mode name).capture w = (.ok (.ok handle), w') := by
      rw [Attempt.capture, hopened]
    refine ⟨some handle, w', ?_, hstands, by rw [if_neg (by simp), hcomplaint]⟩
    rw [openLibrary, Attempt.bind_of_ok (x := .state) rfl, if_pos hw]
    exact Attempt.bind_of_ok hcapture _

theorem findInLibrary_some (hw : w.installed = true) (handle : Address) (name : String) :
    ∃ found w', findInLibrary handle (some name) w = (.ok found, w') ∧ w.Stands w' ∧
      w'.complaint = if found = none then some (cannotFind name) else w.complaint := by
  have hstands := stands_resolveIn handle name w
  have hresolve : Engine.resolveIn handle name w = (.ok (w.linkage.resolveIn handle name).1,
      { w with linkage := (w.linkage.resolveIn handle name).2 }) := rfl
  cases hfound : (w.linkage.resolveIn handle name).1 with
  | none =>
    rw [hfound] at hresolve
    refine ⟨none, { w with
      linkage := (w.linkage.resolveIn handle name).2, complaint := some (cannotFind name) }, ?_,
      hstands.trans (.of_eq rfl rfl rfl rfl rfl rfl), by rw [if_pos rfl]⟩
    rw [findInLibrary, Attempt.bind_of_ok (x := .state) rfl, if_pos hw]
    exact Attempt.bind_of_ok hresolve _
  | some address =>
    rw [hfound] at hresolve
    refine ⟨some address, _, ?_, hstands, by rw [if_neg (by simp)]⟩
    rw [findInLibrary, Attempt.bind_of_ok (x := .state) rfl, if_pos hw]
    exact Attempt.bind_of_ok hresolve _

/-- What is tracked is not closed. -/
theorem closeLibrary_of_contains (hw : w.installed = true)
    (h : w.linkage.registry.contains handle = true) : closeLibrary handle w = (.ok true, w) := by
  rw [closeLibrary, Attempt.bind_of_ok (x := .state) rfl, if_pos (by simp [hw, h])]
  rfl

/-- Anything else is left to the loader, which closes nothing that is tracked. -/
theorem closeLibrary_stands (hw : w.installed = true) (handle : Address) :
    ∃ closed w', closeLibrary handle w = (.ok closed, w') ∧ w.Stands w' ∧
      w'.complaint = w.complaint := by
  by_cases h : w.linkage.registry.contains handle = true
  · exact ⟨true, w, closeLibrary_of_contains hw h, .refl w, rfl⟩
  · refine ⟨(w.linkage.loader.close handle).1, changeLoader w (w.linkage.loader.close handle).2, ?_,
      ⟨rfl, List.prefix_rfl, fun tracked htracked => ?_, ?_⟩, rfl⟩
    · rw [closeLibrary, Attempt.bind_of_ok (x := .state) rfl, if_neg (by simp [h])]
      rfl
    · have hne : handle ≠ tracked := by
        rintro rfl
        exact h htracked
      exact .of_close hne _
    · funext mode name
      exact congrArg (fun texts : LoaderTexts => texts.notOpened _ _ _)
        (w.linkage.loader.texts_close handle)

/-- What the engine has to say comes first, ... -/
theorem loaderError_of_some {reason : String} (h : w.complaint = some reason) :
    loaderError w = (.ok (some (.kept reason)), { w with complaint := none }) := by
  rw [loaderError, Attempt.take, h]

/-- ... and the loader is asked when that is nothing. -/
theorem loaderError_of_none (h : w.complaint = none) :
    loaderError w = (.ok (w.linkage.loader.pending.map .loader),
      changeLoader w { w.linkage.loader with pending := none }) := by
  rw [loaderError, Attempt.take, h]
  rfl

/-! ## Calls and replies -/

/-- A call of a library routine by compiled code; what is to be found has a name. -/
inductive LibraryCall
  /-- Open a library, or the host image. -/
  | load (name : Option String) (mode : OpenMode)
  /-- Find a name through a handle. -/
  | find (handle : Address) (name : String)
  | close (handle : Address)
  /-- Ask why the last call failed. -/
  | ask
  deriving DecidableEq

/-- What a library routine replies. -/
inductive LibraryReply
  | handle (found : Option Address)
  | address (found : Option Address)
  | closed (done : Bool)
  | reason (error : Option LoaderError)
  deriving DecidableEq

namespace LibraryCall

/-- Make a call. -/
def run : LibraryCall → Attempt (World σ) LibraryReply
  | load name mode => do return .handle (← openLibrary name mode)
  | find handle name => do return .address (← findInLibrary handle (some name))
  | close handle => do return .closed (← closeLibrary handle)
  | ask => do return .reason (← loaderError)

/-- Make some calls, one after the other, and keep each with its reply. -/
def runAll : List LibraryCall → Attempt (World σ) (List (LibraryCall × LibraryReply))
  | [] => pure []
  | c :: calls => do
    let reply ← c.run
    let rest ← runAll calls
    return (c, reply) :: rest

/-- What the engine says about a call that failed, in worlds that stand as one does: that no library
opens under the name, or that the name is not found. -/
def failure? (w : World σ) : LibraryCall × LibraryReply → Option String
  | (load (some name) mode, .handle none) => some (cannotOpen name (w.openReason mode name))
  | (find _ name, .address none) => some (cannotFind name)
  | _ => none

/-- What is still to be told after some calls: the last failure since the last question. -/
def untold (w : World σ) (t : List (LibraryCall × LibraryReply)) : Option String :=
  (t.reverse.takeWhile fun x => x.1 != ask).findSome? (failure? w)

theorem failure?_congr {w w' : World σ} (h : w.Stands w') : failure? w' = failure? w := by
  funext x
  unfold failure?
  rw [h.reason]

theorem untold_concat (w : World σ) (t : List (LibraryCall × LibraryReply))
    (x : LibraryCall × LibraryReply) :
    untold w (t ++ [x]) = if x.1 = ask then none else (failure? w x).or (untold w t) := by
  rw [untold, List.reverse_append, List.reverse_singleton, List.singleton_append,
    List.takeWhile_cons]
  by_cases hask : x.1 = ask
  · simp [hask]
  · simp only [bne_iff_ne, ne_eq, hask, not_false_eq_true, if_true, if_false, List.findSome?_cons]
    cases failure? w x <;> rfl

/-! ## One call -/

section Run

variable {w : World σ}

/-- **What a call does**: it replies, what is tracked stays, and what the engine has to say is the
failure of the call, or else what it was, unless the call asked for it. -/
theorem run_spec (hw : w.installed = true) (c : LibraryCall) :
    ∃ reply w', c.run w = (.ok reply, w') ∧ w.Stands w' ∧
      w'.complaint = if c = ask then none else (failure? w (c, reply)).or w.complaint := by
  cases c with
  | load name mode =>
    cases name with
    | none =>
      refine ⟨_, w, Attempt.bind_of_ok (openLibrary_none hw mode) _, .refl w, ?_⟩
      rw [if_neg (by simp)]
      rfl
    | some name =>
      obtain ⟨found, w', hrun, hstands, hcomplaint⟩ := openLibrary_some hw name mode
      refine ⟨_, w', Attempt.bind_of_ok hrun _, hstands, ?_⟩
      rw [if_neg (by simp), hcomplaint]
      cases found <;> rfl
  | find handle name =>
    obtain ⟨found, w', hrun, hstands, hcomplaint⟩ := findInLibrary_some hw handle name
    refine ⟨_, w', Attempt.bind_of_ok hrun _, hstands, ?_⟩
    rw [if_neg (by simp), hcomplaint]
    cases found <;> rfl
  | close handle =>
    obtain ⟨closed, w', hrun, hstands, hcomplaint⟩ := closeLibrary_stands hw handle
    refine ⟨_, w', Attempt.bind_of_ok hrun _, hstands, ?_⟩
    rw [if_neg (by simp), hcomplaint]
    rfl
  | ask =>
    cases hcomplaint : w.complaint with
    | some reason =>
      exact ⟨_, _, Attempt.bind_of_ok (loaderError_of_some hcomplaint) _,
        .of_eq rfl rfl rfl rfl rfl rfl,
        (if_pos rfl).symm⟩
    | none =>
      exact ⟨_, _, Attempt.bind_of_ok (loaderError_of_none hcomplaint) _,
        .of_eq rfl rfl rfl rfl rfl rfl,
        hcomplaint.trans (if_pos rfl).symm⟩

/-- Only a question is answered with a reason, and with what the engine has to say. -/
theorem complaint_of_run {c : LibraryCall} {m : String} {w' : World σ}
    (h : c.run w = (.ok (.reason (some (.kept m))), w')) : c = ask ∧ w.complaint = some m := by
  cases c with
  | load name mode =>
    obtain ⟨found, w₁, -, hreply⟩ := Attempt.bind_eq_ok h
    simp at hreply
  | find handle name =>
    obtain ⟨found, w₁, -, hreply⟩ := Attempt.bind_eq_ok h
    simp at hreply
  | close handle =>
    obtain ⟨closed, w₁, -, hreply⟩ := Attempt.bind_eq_ok h
    simp at hreply
  | ask =>
    cases hcomplaint : w.complaint with
    | some reason =>
      rw [run, Attempt.bind_of_ok (loaderError_of_some hcomplaint)] at h
      obtain ⟨rfl, -⟩ : reason = m ∧ { w with complaint := none } = w' := by simpa using h
      exact ⟨rfl, rfl⟩
    | none =>
      rw [run, Attempt.bind_of_ok (loaderError_of_none hcomplaint)] at h
      cases hpending : w.linkage.loader.pending with
      | none =>
        rw [hpending] at h
        simp at h
      | some reason =>
        rw [hpending] at h
        simp at h

end Run

/-! ## Some calls -/

section RunAll

variable {w w' w'' : World σ} {calls calls' : List LibraryCall}
  {t t' : List (LibraryCall × LibraryReply)}

theorem runAll_append (h : runAll calls w = (.ok t, w')) (h' : runAll calls' w' = (.ok t', w'')) :
    runAll (calls ++ calls') w = (.ok (t ++ t'), w'') := by
  induction calls generalizing w t with
  | nil =>
    obtain ⟨ht, rfl⟩ := Prod.mk.inj h
    obtain rfl := Except.ok.inj ht
    exact h'
  | cons c calls ih =>
    rw [runAll] at h
    obtain ⟨reply, w₁, hrun, hrest⟩ := Attempt.bind_eq_ok h
    obtain ⟨rest, w₂, hcalls, hlast⟩ := Attempt.bind_eq_ok hrest
    obtain ⟨ht, rfl⟩ := Prod.mk.inj hlast
    obtain rfl := Except.ok.inj ht
    rw [List.cons_append, runAll, Attempt.bind_of_ok hrun, Attempt.bind_of_ok (ih hcalls)]
    rfl

theorem runAll_concat {c : LibraryCall} {reply : LibraryReply} (h : runAll calls w = (.ok t, w'))
    (hc : c.run w' = (.ok reply, w'')) :
    runAll (calls ++ [c]) w = (.ok (t ++ [(c, reply)]), w'') := by
  refine runAll_append h ?_
  rw [runAll, Attempt.bind_of_ok hc]
  rfl

/-- Whatever is called, all calls reply and what is tracked stays. -/
theorem exists_runAll (hw : w.installed = true) (calls : List LibraryCall) :
    ∃ t w', runAll calls w = (.ok t, w') ∧ w.Stands w' := by
  induction calls generalizing w with
  | nil => exact ⟨[], w, rfl, .refl w⟩
  | cons c calls ih =>
    obtain ⟨reply, w₁, hrun, hstands, -⟩ := run_spec hw c
    obtain ⟨t, w', hcalls, hstands'⟩ := ih (hstands.installed.trans hw)
    refine ⟨(c, reply) :: t, w', ?_, hstands.trans hstands'⟩
    rw [runAll, Attempt.bind_of_ok hrun, Attempt.bind_of_ok hcalls]
    rfl

/-- What the engine told when it was asked, of one call. -/
def tells (m : String) (x : LibraryCall × LibraryReply) : Bool := x.2 = .reason (some (.kept m))

/-- Whether a call failed in such a way that the engine has this to say. -/
def failsWith (w : World σ) (m : String) (x : LibraryCall × LibraryReply) : Bool :=
  failure? w x = some m

/-- **What some calls do**: each has its reply, what is tracked stays, what the engine has to say is
the last failure since the last question, and it has told nothing more often than it failed so, one
time less as long as it is still to be told. -/
theorem runAll_spec (hw : w.installed = true) (hquiet : w.complaint = none)
    (calls : List LibraryCall) : ∃ t w', runAll calls w = (.ok t, w') ∧ t.map Prod.fst = calls ∧
      w.Stands w' ∧ w'.complaint = untold w t ∧
      ∀ m, t.countP (tells m) + (if untold w t = some m then 1 else 0) ≤
        t.countP (failsWith w m) := by
  induction calls using List.reverseRecOn with
  | nil => exact ⟨[], w, rfl, rfl, .refl w, hquiet, fun m => by simp [untold]⟩
  | append_singleton calls c ih =>
    obtain ⟨t, w', hcalls, hfst, hstands, hcomplaint, htold⟩ := ih
    obtain ⟨reply, w'', hrun, hstands', hcomplaint'⟩ :=
      run_spec (hstands.installed.trans hw) c
    refine ⟨t ++ [(c, reply)], w'', runAll_concat hcalls hrun, by simp [hfst],
      hstands.trans hstands', ?_, fun m => ?_⟩
    · rw [hcomplaint', hcomplaint, untold_concat, failure?_congr hstands]
    have htells : tells m (c, reply) = true → c = ask ∧ untold w t = some m := by
      intro hm
      obtain rfl : reply = .reason (some (.kept m)) := of_decide_eq_true hm
      rw [← hcomplaint]
      exact complaint_of_run hrun
    have hcount := htold m
    rw [untold_concat, List.countP_append, List.countP_append, List.countP_singleton,
      List.countP_singleton]
    by_cases hask : c = ask
    · -- what was to be told is told now
      have htold' : (if tells m (c, reply) then 1 else 0) ≤
          if untold w t = some m then 1 else 0 := by
        split
        · next hm => exact Nat.le_of_eq (if_pos (htells hm).2).symm
        · exact Nat.zero_le _
      have hnothing : (if c = ask then none else (failure? w (c, reply)).or (untold w t)) = none :=
        if_pos hask
      rw [hnothing, if_neg (Option.some_ne_none m).symm]
      omega
    · have hnone : tells m (c, reply) = false := by
        cases hm : tells m (c, reply) with
        | false => rfl
        | true => exact absurd (htells hm).1 hask
      rw [if_neg hask, hnone]
      cases hfailure : failure? w (c, reply) with
      | none =>
        rw [Option.none_or]
        simp only [failsWith, hfailure]
        simpa using hcount
      | some m' =>
        rw [Option.some_or]
        simp only [failsWith, hfailure, decide_eq_true_eq, Bool.false_eq_true, if_false]
        omega

end RunAll

end LibraryCall

open LibraryCall

/-- **Failures are told once, and what is tracked stays open.** In a world with the engine
installed, the host image tracked (`Engine.isSome_hostHandle?_launch`) and nothing to say, compiled
code makes any calls of the library routines. All of them reply. When it then asks why a call
failed, the engine tells the last failure since the last question, and without one it is for the
loader to tell; nothing is told more often than it failed. The host image opens. Closing a handle
that is tracked succeeds and changes nothing, so every later call replies as it would have. Whatever
is called later, the handle stays tracked, its library is in use at least as often, and a name that
is looked up through it is found where it was. -/
theorem loaderError_tells {w : World σ} (hw : w.installed = true) (hquiet : w.complaint = none)
    (hhost : w.linkage.registry.hostHandle?.isSome) (calls : List LibraryCall) :
    ∃ t w', runAll calls w = (.ok t, w') ∧ t.map Prod.fst = calls ∧
      (∀ m, untold w t = some m →
        ask.run w' = (.ok (.reason (some (.kept m))), { w' with complaint := none })) ∧
      (untold w t = none → ask.run w' =
        (.ok (.reason (w'.linkage.loader.pending.map .loader)),
          changeLoader w' { w'.linkage.loader with pending := none })) ∧
      (∀ m, t.countP (tells m) ≤ t.countP (failsWith w m)) ∧
      (∀ mode, ∃ host, (load none mode).run w' = (.ok (.handle (some host)), w')) ∧
      ∀ handle, w'.linkage.registry.contains handle = true →
        (close handle).run w' = (.ok (.closed true), w') ∧
        ∀ later, ∃ t' w'', runAll later w' = (.ok t', w'') ∧
          runAll (close handle :: later) w' = (.ok ((close handle, .closed true) :: t'), w'') ∧
          w''.linkage.registry.contains handle = true ∧
          ∀ lib, w'.linkage.loader.library? handle = some lib →
            (∃ lib', w''.linkage.loader.library? handle = some lib' ∧ lib.uses ≤ lib'.uses) ∧
            (handle ≠ Loader.hostHandle → ∀ name,
              w''.linkage.loader.found? handle name = w'.linkage.loader.found? handle name) := by
  obtain ⟨t, w', hrun, hfst, hstands, hcomplaint, htold⟩ := runAll_spec hw hquiet calls
  have hw' : w'.installed = true := hstands.installed.trans hw
  obtain ⟨host, hhost⟩ := Option.isSome_iff_exists.1 hhost
  have hopen (mode : OpenMode) : (load none mode).run w' = (.ok (.handle (some host)), w') := by
    rw [LibraryCall.run, Attempt.bind_of_ok (openLibrary_none hw' mode), hstands.hostHandle? hhost]
    rfl
  refine ⟨t, w', hrun, hfst,
    fun m hm => Attempt.bind_of_ok (loaderError_of_some (hcomplaint.trans hm)) _,
    fun hnone => Attempt.bind_of_ok (loaderError_of_none (hcomplaint.trans hnone)) _,
    fun m => Nat.le_trans (Nat.le_add_right _ _) (htold m), fun mode => ⟨host, hopen mode⟩,
    fun handle hhandle => ?_⟩
  have hclose : (close handle).run w' = (.ok (.closed true), w') :=
    Attempt.bind_of_ok (closeLibrary_of_contains hw' hhandle) _
  refine ⟨hclose, fun later => ?_⟩
  obtain ⟨t', w'', hlater, hstands'⟩ := exists_runAll hw' later
  refine ⟨t', w'', hlater, ?_, hstands'.contains hhandle, fun lib hlib => ?_⟩
  · rw [runAll, Attempt.bind_of_ok hclose, Attempt.bind_of_ok hlater]
    rfl
  · have hkeeps := hstands'.loader handle hhandle
    obtain ⟨lib', hlib', -, -, huses⟩ := hkeeps.library lib hlib
    exact ⟨⟨lib', hlib', huses⟩, fun hne name => hkeeps.found?_eq hne hlib name⟩

/-- A process with the engine installed, in which one library can be opened. -/
def installedWorld : World Unit :=
  { World.start () (.empty 0) (.start ⟨[.function "getpid"]⟩ ⟨[]⟩
      [⟨"liba.so", ⟨[.function "liba_sum"]⟩, none⟩]) false with installed := true }

/-- One library opens and another does not, and a name is not found: the last of these is told. -/
theorem loaderError_tells_installedWorld :
    let calls : List LibraryCall := [load (some "liba.so") .default,
      load (some "nosuch.so") .default, find Loader.hostHandle "missing"]
    installedWorld.installed = true ∧ installedWorld.complaint = none ∧
      installedWorld.linkage.registry.hostHandle?.isSome ∧
      ∃ t w', runAll calls installedWorld = (.ok t, w') ∧
        t.map Prod.snd = [.handle (some 0x20000000), .handle none, .address none] ∧
        ask.run w' = (.ok (.reason (some (.kept (cannotFind "missing")))),
          { w' with complaint := none }) ∧
        w'.linkage.registry.contains 0x20000000 = true ∧
        (close 0x20000000).run w' = (.ok (.closed true), w') := by
  intro calls
  have hhost : installedWorld.linkage.registry.hostHandle?.isSome := by decide +kernel
  obtain ⟨t, w', hrun, -, htold, -, -, -, htracked⟩ := loaderError_tells rfl rfl hhost calls
  have hreplies : (runAll calls installedWorld).1 = .ok (calls.zip
      [.handle (some 0x20000000), .handle none, .address none]) := by decide +kernel
  have hcontains : (runAll calls installedWorld).2.linkage.registry.contains 0x20000000 = true := by
    decide +kernel
  rw [hrun] at hreplies hcontains
  obtain rfl := Except.ok.inj hreplies
  exact ⟨rfl, rfl, hhost, _, w', hrun, rfl, htold _ rfl, hcontains, (htracked _ hcontains).1⟩

end Contract

end LiveC
