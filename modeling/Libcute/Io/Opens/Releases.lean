import Libcute.Io.Opens.Paths

/-!
# Releasing what a failed call holds

`cu_File_open` and `cu_Dir_open` copy the path before they open it, and do not
look at the copy when the system refuses; `cu_Dir_openat` copies it afterwards.
`opens_release_iff` says that the block of the copy is all that a call that
returns an error can keep, and when it does.
-/

namespace Libcute.Io.Opens

open Libcute.Io.Error
open Libcute.Text.Format (ascii)

/-- The path is copied before it is opened. -/
def Call.CopiesFirst : Call → Prop
  | .fileOpen _ _ _ => True
  | .dirOpen _ _ _ => True
  | .dirOpenat _ _ _ => False
  | .fstreamOpen _ _ _ _ => True
  | .fstreamOpenat _ _ _ _ _ => False

/--
No block is granted for a path that is copied first, or the system makes and
opens what is asked for.
-/
def Releases (call : Call) (system : System) (grants : Grants) : Prop :=
  call.CopiesFirst → ∀ request, call.request = some (.ok request) →
    grants.path = none ∨ ∃ handle, system.answer request = .ok handle

variable {request : Request} {system : System} {grants : Grants}
  {held held' between : Held} {allocator : Nat} {file : File}
  {released : Prop} {res : Except IoError File × Held}

/-! ## One file -/

/-- A handle and the block of the path are held in addition. -/
def Owns (held : Held) (file : File) (held' : Held) : Prop :=
  ∃ handle storage, file.handle = some handle ∧
    file.path.str.data = some storage ∧
    held' = ⟨(file.path.allocator, storage.mem) :: held.blocks,
      handle :: held.handles⟩

/--
How opening ends: with an error after which everything is given back exactly
on a condition, or with a file, in which case the condition holds.
-/
def Ends (held : Held) (released : Prop) :
    Except IoError File × Held → Prop
  | (.error _, held') => held' = held ↔ released
  | (.ok file, held') => released ∧ Owns held file held'

/-- Closing a file gives back what it owns. -/
theorem Owns.close (owns : Owns held file held') :
    (fileClose file held').2 = held := by
  rcases owns with ⟨handle, storage, opened, data, rfl⟩
  unfold fileClose
  rw [opened]
  dsimp only
  rw [data]
  unfold Held.close Held.free
  dsimp only
  rw [List.erase_cons_head, List.erase_cons_head]

theorem blocks_ne (held : Held) (block : Nat × Core.Interface.Slice) :
    ({ held with blocks := block :: held.blocks } : Held) ≠ held := by
  intro same
  exact List.cons_ne_self _ _ (congrArg Held.blocks same)

/-- The copy is kept when it was granted and the system refuses. -/
theorem copyThenOpen_ends
    (short : request.copied.length ≤ maxPathLength)
    (opens : copyThenOpen request allocator system grants held = some res) :
    Ends held
      (grants.path = none ∨ ∃ handle, system.answer request = .ok handle)
      res := by
  unfold copyThenOpen at opens
  rcases copies : stringFromCstr allocator request.copied grants.path held with
    _ | ⟨pres, between⟩
  · rw [copies] at opens
    cases opens
  rw [copies] at opens
  dsimp only at opens
  rcases opened : openPath system request between with _ | ⟨outcome, after⟩
  · rw [opened] at opens
    cases opens
  rw [opened] at opens
  rcases openPath_cases opened with
    ⟨errno, answers, rfl, rfl⟩ | ⟨handle, answers, rfl, rfl⟩
  · cases opens
    have fails : ¬ ∃ handle, system.answer request = .ok handle := by
      rintro ⟨handle, succeeds⟩
      rw [answers] at succeeds
      cases succeeds
    rcases stringFromCstr_cases short copies with
      ⟨refused, _, rfl⟩ | ⟨granted, path, storage, _, _, _, _, rfl⟩
    · exact ⟨fun _ => .inl refused, fun _ => rfl⟩
    · exact ⟨fun same => absurd same (blocks_ne held _),
        fun condition => (condition.elim granted fails).elim⟩
  · have succeeds : ∃ handle, system.answer request = .ok handle :=
      ⟨handle, answers⟩
    rcases stringFromCstr_cases short copies with
      ⟨_, ⟨err, rfl⟩, rfl⟩ |
        ⟨_, path, storage, rfl, rfl, _, data, rfl⟩
    · cases opens
      refine ⟨fun _ => .inr succeeds, fun _ => ?_⟩
      unfold Held.close
      dsimp only
      rw [List.erase_cons_head]
    · cases opens
      exact ⟨.inr succeeds, handle, storage, rfl, data, rfl⟩

/-- Nothing is kept when the path is opened first. -/
theorem openThenCopy_ends
    (short : request.copied.length ≤ maxPathLength)
    (opens : openThenCopy request allocator system grants held = some res) :
    Ends held True res := by
  unfold openThenCopy at opens
  rcases opened : openPath system request held with _ | ⟨outcome, between⟩
  · rw [opened] at opens
    cases opens
  rw [opened] at opens
  rcases openPath_cases opened with
    ⟨errno, _, rfl, rfl⟩ | ⟨handle, _, rfl, rfl⟩
  · cases opens
    exact ⟨fun _ => trivial, fun _ => rfl⟩
  · dsimp only at opens
    rcases copies : stringFromCstr allocator request.copied grants.path
      { held with handles := handle :: held.handles } with
      _ | ⟨pres, after⟩
    · rw [copies] at opens
      cases opens
    rw [copies] at opens
    rcases stringFromCstr_cases short copies with
      ⟨_, ⟨err, rfl⟩, rfl⟩ |
        ⟨_, path, storage, rfl, rfl, _, data, rfl⟩
    · cases opens
      refine ⟨fun _ => trivial, fun _ => ?_⟩
      unfold Held.close
      dsimp only
      rw [List.erase_cons_head]
    · cases opens
      exact ⟨trivial, handle, storage, rfl, data, rfl⟩

/-! ## The calls -/

theorem fileRequest_copied
    {path : List UInt8} {options : Options}
    (requests : fileRequest path options = some (.ok request)) :
    request.copied.length ≤ maxPathLength := by
  by_cases idle : options.Idle
  · rw [fileRequest_idle idle] at requests
    cases requests
  · rw [fileRequest_eq idle] at requests
    cases requests
    exact (length_padded path).le

theorem dirRequest_copied
    {path : List UInt8} {create : Bool}
    (requests : dirRequest path create = some (.ok request)) :
    request.copied.length ≤ maxPathLength := by
  rw [dirRequest_eq] at requests
  cases requests
  exact (length_padded path).le

theorem atRequest_copied
    {dir : Dir} {path : List UInt8} {options : Options}
    (requests : atRequest dir path options = some (.ok request)) :
    request.copied.length ≤ maxPathLength := by
  by_cases refused : dir.handle = none ∨ options.Idle
  · rw [atRequest_refused refused] at requests
    cases requests
  · rw [atRequest_eq refused] at requests
    rcases Option.map_eq_some_iff.mp requests with ⟨fullpath, _, same⟩
    cases same
    exact (length_padded path).le

/-- A call that is rejected holds what it held. -/
theorem proceed_ends
    {asked : Option (Except IoError Request)}
    {opens : Request → Option (Except IoError File × Held)}
    {condition : Request → Prop}
    (ends : ∀ request res, asked = some (.ok request) →
      opens request = some res → Ends held (condition request) res)
    (proceeds : proceed asked held opens = some res) :
    Ends held (∀ request, asked = some (.ok request) → condition request)
      res := by
  unfold proceed at proceeds
  rcases asked with _ | err | request
  · cases proceeds
  · cases proceeds
    exact ⟨fun _ _ absent => (nomatch absent), fun _ => rfl⟩
  · have same : (∀ other, some (Except.ok request) =
        some (Except.ok other : Except IoError Request) → condition other) ↔
          condition request := by
      refine ⟨fun all => all request rfl, ?_⟩
      rintro holds _ ⟨⟩
      exact holds
    rw [same]
    exact ends request res rfl proceeds

/-- What `Releases` says of a call that copies the path first. -/
abbrev Answered (system : System) (grants : Grants) (request : Request) :
    Prop :=
  grants.path = none ∨ ∃ handle, system.answer request = .ok handle

theorem fileOpen_ends
    {path : List UInt8} {options : Options}
    (opens : fileOpen path options allocator system grants held = some res) :
    Ends held (∀ request, fileRequest path options = some (.ok request) →
      Answered system grants request) res :=
  proceed_ends (fun _ _ requests =>
    copyThenOpen_ends (fileRequest_copied requests)) opens

theorem dirOpen_ends
    {path : List UInt8} {create : Bool}
    (opens : dirOpen path create allocator system grants held = some res) :
    Ends held (∀ request, dirRequest path create = some (.ok request) →
      Answered system grants request) res :=
  proceed_ends (fun _ _ requests =>
    copyThenOpen_ends (dirRequest_copied requests)) opens

theorem dirOpenat_ends
    {dir : Dir} {path : List UInt8} {options : Options}
    (opens : dirOpenat dir path options system grants held = some res) :
    Ends held True res := by
  have ends := proceed_ends (fun _ _ requests =>
    openThenCopy_ends (atRequest_copied requests)) opens
  simpa only [implies_true] using ends

/-- A ring buffer that cannot be made gives the file back. -/
theorem bufferFile_ends
    {opened : Option (Except IoError File × Held)} {options : Options}
    {bufferSize : Nat} {err : IoError}
    (ends : ∀ res, opened = some res → Ends held released res)
    (returns : bufferFile opened options bufferSize allocator grants =
      some (.error err, held')) : held' = held ↔ released := by
  unfold bufferFile at returns
  rcases opened with _ | ⟨err | file, between⟩
  · cases returns
  · cases returns
    exact ends _ rfl
  · rcases ends _ rfl with ⟨holds, owns⟩
    dsimp only at returns
    split at returns
    · cases returns
      exact ⟨fun _ => holds, fun _ => owns.close⟩
    · cases returns

/-! ## The main result -/

theorem error_of_map
    {T : Type} {opened : Option (Except IoError T × Held)} {err : IoError}
    (returns : (opened.map fun (res, held) => (errorOf res, held)) =
      some (some err, held')) : opened = some (.error err, held') := by
  rcases Option.map_eq_some_iff.mp returns with ⟨⟨_ | _, _⟩, rfl, same⟩
  · cases same
    rfl
  · cases same

/--
The main result: a call that returns an error has given back every block and
closed every handle, except when it has copied the path before the system
refuses it.
-/
theorem opens_release_iff
    {call : Call} {err : IoError}
    (returns : call.perform system grants held = some (some err, held')) :
    held' = held ↔ Releases call system grants := by
  cases call with
  | fileOpen path options allocator =>
      have ends : _ ↔ _ := fileOpen_ends (error_of_map returns)
      exact ends.trans ⟨fun all _ => all, fun all => all trivial⟩
  | dirOpen path create allocator =>
      have ends : _ ↔ _ := dirOpen_ends (error_of_map returns)
      exact ends.trans ⟨fun all _ => all, fun all => all trivial⟩
  | dirOpenat dir path options =>
      have ends : _ ↔ _ := dirOpenat_ends (error_of_map returns)
      exact ends.trans ⟨fun _ first => first.elim, fun _ => trivial⟩
  | fstreamOpen path options bufferSize allocator =>
      have ends := bufferFile_ends (fun _ => fileOpen_ends)
        (error_of_map returns)
      exact ends.trans ⟨fun all _ => all, fun all => all trivial⟩
  | fstreamOpenat dir path options bufferSize allocator =>
      have ends := bufferFile_ends (fun _ => dirOpenat_ends)
        (error_of_map returns)
      exact ends.trans ⟨fun _ first => first.elim, fun _ => trivial⟩

/-- No file is there. -/
def refusing : System := ⟨fun _ _ => none, fun _ _ _ => .error 2⟩

/-- The allocators grant a block for the path. -/
def granting : Grants := ⟨some (64, fun _ => 0), none⟩

/-- A file that is not in the directory keeps nothing. -/
theorem opens_release_iff_at :
    ∃ held', (Call.dirOpenat directoryA [ascii 'b'] readOnly).perform refusing
        granting ⟨[], [3]⟩ = some (some (fromErrno 2), held') ∧
      held' = ⟨[], [3]⟩ := by
  have returns : (Call.dirOpenat directoryA [ascii 'b'] readOnly).perform
      refusing granting ⟨[], [3]⟩ =
        some (some (fromErrno 2), ⟨[], [3]⟩) := by
    decide +kernel
  exact ⟨_, returns, (opens_release_iff returns).mpr fun first => first.elim⟩

/-- A file that is not there keeps the copy of its path. -/
theorem opens_keep_copy :
    (Call.fileOpen [ascii 'b'] readOnly 0).perform refusing granting
      ⟨[], []⟩ = some (some (fromErrno 2), ⟨[(0, ⟨64, 2⟩)], []⟩) := by
  decide +kernel

end Libcute.Io.Opens
