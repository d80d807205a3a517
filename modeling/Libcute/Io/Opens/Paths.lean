import Libcute.Io.Opens
import Libcute.Text.CuteString.Runs

/-!
# Paths in buffers

A path is copied as far as the buffer goes, and nobody looks whether a NUL is
behind it.  `paths_whole_iff` says that the whole path reaches the system
exactly when it is shorter than the buffer, and for `cu_Dir_openat` that an
empty directory path, behind which no separator is put, needs none.
-/

namespace Libcute.Io.Opens

open Libcute.Collection.Blocks (Grant)
open Libcute.Collection.RingBuffer (objectLimit)
open Libcute.Core.Size
open Libcute.Io.Error
open Libcute.Text.CuteString
open Libcute.Text.Format (ascii cString)

/-- The path that a call is given. -/
def Call.path : Call → List UInt8
  | .fileOpen path _ _ => path
  | .dirOpen path _ _ => path
  | .dirOpenat _ path _ => path
  | .fstreamOpen path _ _ _ => path
  | .fstreamOpenat _ path _ _ _ => path

/-- The directory that a path starts from. -/
def Call.dir : Call → Option Dir
  | .fileOpen _ _ _ => none
  | .dirOpen _ _ _ => none
  | .dirOpenat dir _ _ => some dir
  | .fstreamOpen _ _ _ _ => none
  | .fstreamOpenat dir _ _ _ _ => some dir

/-- The path in a directory, with one separator if neither side has it. -/
def joined (dirPath path : List UInt8) : List UInt8 :=
  dirPath ++
    (if dirPath.getLast? = some pathSeparator ∨
        path.head? = some pathSeparator then
      []
    else
      [pathSeparator]) ++ path

/-- The whole path that is asked for. -/
def Call.asked (call : Call) : List UInt8 :=
  match call.dir with
  | none => call.path
  | some dir => joined dir.path.str.asSlice call.path

/-- The paths are C strings. -/
structure Plain (call : Call) : Prop where
  path : 0 ∉ call.path
  dir : ∀ dir, call.dir = some dir →
    Sound dir.path.str ∧ 0 ∉ dir.path.str.asSlice

/-- The buffers have a NUL, and the system is given the whole path. -/
structure Passes (request : Request) (asked : List UInt8) : Prop where
  opened : request.opened.length = maxPathLength ∧ 0 ∈ request.opened
  copied : request.copied.length = maxPathLength ∧ 0 ∈ request.copied
  whole : cString request.opened = asked

/-- The call is rejected, or the system is given the whole path. -/
def Whole (call : Call) : Prop :=
  ∃ outcome, call.request = some outcome ∧
    ∀ request, outcome = .ok request → Passes request call.asked

/-- Neither reading nor writing is asked for. -/
def Options.Idle (options : Options) : Prop :=
  options.read = false ∧ options.write = false

/-- The call is rejected before a path is looked at. -/
def Refused : Call → Prop
  | .fileOpen _ options _ => options.Idle
  | .dirOpen _ _ _ => False
  | .dirOpenat dir _ options => dir.handle = none ∨ options.Idle
  | .fstreamOpen _ options _ _ => options.Idle
  | .fstreamOpenat dir _ options _ _ => dir.handle = none ∨ options.Idle

/-- No separator is missing behind an empty directory path. -/
def Separated (call : Call) : Prop :=
  ∀ dir, call.dir = some dir →
    dir.path.str.asSlice ≠ [] ∨ call.path.head? = some pathSeparator

/-- The call is rejected, or the path is shorter than the buffer. -/
def Fits (call : Call) : Prop :=
  Refused call ∨ call.asked.length < maxPathLength ∧ Separated call

/-! ## The buffers -/

variable {text path dirPath front : List UInt8} {dir : Dir} {call : Call}
  {options : Options} {request : Request}

/-- A buffer that holds as much of a text as it can. -/
def padded (text : List UInt8) : List UInt8 :=
  text.take maxPathLength ++ List.replicate (maxPathLength - text.length) 0

theorem length_padded (text : List UInt8) :
    (padded text).length = maxPathLength := by
  unfold padded
  rw [List.length_append, List.length_take, List.length_replicate]
  omega

theorem padded_of_le (fits : text.length ≤ maxPathLength) :
    padded text = text ++ List.replicate (maxPathLength - text.length) 0 := by
  unfold padded
  rw [List.take_of_length_le fits]

/-- There is a NUL behind a shorter text only. -/
theorem mem_padded_iff (plain : 0 ∉ text) :
    0 ∈ padded text ↔ text.length < maxPathLength := by
  unfold padded
  rw [List.mem_append, List.mem_replicate]
  constructor
  · rintro (among | ⟨room, _⟩)
    · exact absurd (List.mem_of_mem_take among) plain
    · omega
  · intro shorter
    exact .inr ⟨by omega, rfl⟩

theorem cString_padded
    (plain : 0 ∉ text) (shorter : text.length < maxPathLength) :
    cString (padded text) = text := by
  have room : maxPathLength - text.length =
      maxPathLength - text.length - 1 + 1 := by omega
  rw [padded_of_le shorter.le, room, List.replicate_succ]
  unfold cString
  rw [List.takeWhile_append_of_pos]
  · rw [List.takeWhile_cons_of_neg (by decide), List.append_nil]
  · intro c among
    rw [decide_eq_true_eq]
    rintro rfl
    exact plain among

theorem copyTo_zeroed (text : List UInt8) :
    copyTo zeroed 0 maxPathLength text = some (padded text) := by
  unfold copyTo
  dsimp only
  split_ifs with none room
  · have empty : text = [] := by
      rw [← List.length_eq_zero_iff]
      unfold maxPathLength at none
      omega
    subst empty
    rfl
  · unfold padded zeroed
    rw [List.take_zero, List.nil_append, Nat.zero_add, List.drop_replicate]
    congr 2
    · rw [List.take_eq_take_iff]
      omega
    · congr 1
      omega
  · rw [Nat.zero_add] at room
    unfold zeroed at room
    rw [List.length_replicate] at room
    omega

theorem lpath_eq (path : List UInt8) : lpath path = some (padded path) :=
  copyTo_zeroed path

/-- A buffer that is copied behind a text of another. -/
theorem copyTo_padded
    (fits : front.length ≤ maxPathLength) (text : List UInt8) :
    copyTo (padded front) front.length (maxPathLength - front.length)
        (padded text) = some (padded (front ++ text)) := by
  have long := length_padded front
  have both : padded (front ++ text) =
      front ++ (padded text).take (maxPathLength - front.length) := by
    unfold padded
    rw [List.take_append, List.take_of_length_le fits, List.append_assoc,
      List.take_append, List.take_take, List.length_append,
      List.take_replicate, List.length_take]
    congr 3
    · rw [Nat.min_eq_left (by omega)]
    · omega
  unfold copyTo
  dsimp only
  rw [length_padded text, Nat.min_eq_left (by omega)]
  split_ifs with full room
  · rw [both, full, List.take_zero, List.append_nil, padded_of_le fits, full]
    exact congrArg some (List.append_nil front)
  · rw [both, List.drop_eq_nil_of_le (by omega), List.append_nil,
      padded_of_le fits, List.take_left' rfl]
  · omega

/-! ## The separator -/

/-- The separator that `cu_Dir_openat` adds. -/
def added (dirPath path : List UInt8) : List UInt8 :=
  if dirPath.length > 0 ∧ dirPath.length < maxPathLength - 1 ∧
      dirPath.getLast? ≠ some pathSeparator ∧
      path.head? ≠ some pathSeparator then
    [pathSeparator]
  else
    []

theorem padded_last
    (filled : dirPath.length > 0) (fits : dirPath.length ≤ maxPathLength) :
    (padded dirPath)[dirPath.length - 1]? = dirPath.getLast? := by
  rw [padded_of_le fits, List.getElem?_append_left (by omega),
    List.getLast?_eq_getElem?]

theorem padded_first (path : List UInt8) :
    (padded path)[0]? = some pathSeparator ↔
      path.head? = some pathSeparator := by
  cases path with
  | nil =>
      have nul : (padded [])[0]? = some 0 := by
        unfold padded
        rw [List.take_nil, List.nil_append, List.getElem?_replicate]
        rfl
      rw [nul]
      decide
  | cons first rest =>
      unfold padded maxPathLength
      rw [List.take_succ_cons, List.cons_append]
      rfl

theorem separate_eq
    (fits : dirPath.length ≤ maxPathLength) (path : List UInt8) :
    separate (padded dirPath) (padded path) dirPath.length =
      (padded (dirPath ++ added dirPath path),
        (dirPath ++ added dirPath path).length) := by
  have same :
      (dirPath.length > 0 ∧ dirPath.length < maxPathLength - 1 ∧
          (padded dirPath)[dirPath.length - 1]? ≠ some pathSeparator ∧
          (padded path)[0]? ≠ some pathSeparator) ↔
        dirPath.length > 0 ∧ dirPath.length < maxPathLength - 1 ∧
          dirPath.getLast? ≠ some pathSeparator ∧
          path.head? ≠ some pathSeparator := by
    refine and_congr_right fun filled => and_congr_right fun _ => ?_
    rw [padded_last filled fits, Ne, Ne, Ne, padded_first]
  unfold separate added
  split_ifs with adds goes goes
  · have room : maxPathLength - dirPath.length =
        maxPathLength - (dirPath ++ [pathSeparator]).length + 1 := by
      rw [List.length_append, List.length_singleton]
      omega
    have extended :
        (dirPath ++ [pathSeparator]).length ≤ maxPathLength := by
      rw [List.length_append, List.length_singleton]
      omega
    rw [padded_of_le fits, padded_of_le extended, room,
      List.set_append_right _ _ le_rfl, Nat.sub_self, List.replicate_succ,
      List.set_cons_zero, List.length_append, List.length_singleton,
      List.append_assoc]
    rfl
  · exact absurd (same.mp adds) goes
  · exact absurd (same.mpr goes) adds
  · rw [List.append_nil]

theorem added_fits (fits : dirPath.length ≤ maxPathLength) :
    (dirPath ++ added dirPath path).length ≤ maxPathLength := by
  unfold added
  split_ifs
  · rw [List.length_append, List.length_singleton]
    omega
  · rw [List.append_nil]
    exact fits

/-- What is opened in a directory whose path is not longer than a buffer. -/
theorem fullpath_eq
    (sound : Sound dir.path.str)
    (fits : dir.path.str.asSlice.length ≤ maxPathLength)
    (path : List UInt8) :
    fullpath dir (padded path) =
      some (padded (dir.path.str.asSlice ++
        added dir.path.str.asSlice path ++ path)) := by
  have counted : dir.path.str.asSlice.length = dir.path.str.length :=
    sound.bytes_length
  have room := @added_fits path _ fits
  unfold fullpath
  rw [copyTo_zeroed, ← counted]
  dsimp only
  rw [separate_eq fits]
  dsimp only
  rw [sizeSub_eq room (by decide)]
  exact copyTo_padded room path

/-- Behind a longer path the file is copied outside of the buffer. -/
theorem fullpath_beyond
    (sound : Sound dir.path.str)
    (beyond : maxPathLength < dir.path.str.asSlice.length)
    (path : List UInt8) : fullpath dir (padded path) = none := by
  have counted : dir.path.str.asSlice.length = dir.path.str.length :=
    sound.bytes_length
  have within := sound.within
  have limit := sound.limit
  unfold Collection.RingBuffer.objectLimit at limit
  have wraps : maxPathLength ≤
      sizeSub maxPathLength dir.path.str.length := by
    unfold sizeSub
    rw [Nat.mod_eq_of_lt (show dir.path.str.length < sizeLimit by
      unfold sizeLimit; omega)]
    unfold sizeLimit
    unfold maxPathLength at *
    omega
  unfold fullpath separate
  rw [copyTo_zeroed]
  dsimp only
  rw [if_neg (by rintro ⟨_, shorter, _⟩; omega)]
  unfold copyTo
  dsimp only
  rw [length_padded, length_padded, Nat.min_eq_right wraps,
    if_neg (by decide), if_neg (by omega)]

/-- The separator is the one that was missing, as far as there is room. -/
theorem joined_iff (dirPath path : List UInt8) :
    ((dirPath ++ added dirPath path ++ path).length < maxPathLength ∧
        dirPath ++ added dirPath path ++ path = joined dirPath path) ↔
      (joined dirPath path).length < maxPathLength ∧
        (dirPath ≠ [] ∨ path.head? = some pathSeparator) := by
  unfold added joined
  by_cases supplied : dirPath.getLast? = some pathSeparator ∨
      path.head? = some pathSeparator
  · have apart : dirPath ≠ [] ∨ path.head? = some pathSeparator := by
      rcases supplied with last | first
      · refine .inl ?_
        rintro rfl
        cases last
      · exact .inr first
    rw [if_neg (by rintro ⟨_, _, last, first⟩
                   exact supplied.elim last first), if_pos supplied]
    exact ⟨fun whole => ⟨whole.1, apart⟩, fun short => ⟨short.1, rfl⟩⟩
  · rw [if_neg supplied]
    rw [not_or] at supplied
    by_cases adds : dirPath.length > 0 ∧ dirPath.length < maxPathLength - 1
    · rw [if_pos ⟨adds.1, adds.2, supplied⟩]
      exact ⟨fun whole => ⟨whole.1, .inl (List.ne_nil_of_length_pos adds.1)⟩,
        fun short => ⟨short.1, rfl⟩⟩
    · rw [if_neg (by rintro ⟨filled, room, _⟩
                     exact adds ⟨filled, room⟩)]
      simp only [List.length_append, List.length_nil, List.length_singleton,
        Nat.add_zero]
      constructor
      · rintro ⟨_, same⟩
        have lengths := congrArg List.length same
        simp only [List.length_append, List.length_nil,
          List.length_singleton] at lengths
        omega
      · rintro ⟨short, filled | first⟩
        · have positive := List.length_pos_iff.mpr filled
          omega
        · exact absurd first supplied.2

/-! ## The calls -/

theorem passes_iff
    (plain : 0 ∉ text) (plainPath : 0 ∉ path)
    (opened : request.opened = padded text)
    (copied : request.copied = padded path) (asked : List UInt8) :
    Passes request asked ↔
      path.length < maxPathLength ∧ text.length < maxPathLength ∧
        text = asked := by
  constructor
  · rintro ⟨⟨_, nul⟩, ⟨_, stops⟩, whole⟩
    rw [opened, mem_padded_iff plain] at nul
    rw [copied, mem_padded_iff plainPath] at stops
    rw [opened, cString_padded plain nul] at whole
    exact ⟨stops, nul, whole⟩
  · rintro ⟨stops, nul, rfl⟩
    refine ⟨?_, ?_, ?_⟩
    · rw [opened, mem_padded_iff plain]
      exact ⟨length_padded _, nul⟩
    · rw [copied, mem_padded_iff plainPath]
      exact ⟨length_padded _, stops⟩
    · rw [opened, cString_padded plain nul]

theorem whole_of_error {err : IoError}
    (rejects : call.request = some (.error err)) : Whole call := by
  refine ⟨_, rejects, ?_⟩
  intro request absent
  cases absent

theorem whole_iff_passes
    (requests : call.request = some (.ok request)) :
    Whole call ↔ Passes request call.asked := by
  constructor
  · rintro ⟨outcome, requests', passes⟩
    rw [requests] at requests'
    cases requests'
    exact passes request rfl
  · intro passes
    refine ⟨_, requests, ?_⟩
    rintro _ ⟨⟩
    exact passes

/-- The calls that copy the path into one buffer. -/
theorem whole_iff_shorter
    (plain : 0 ∉ call.path) (absent : call.dir = none)
    (requests : call.request = some (.ok request))
    (opened : request.opened = padded call.path)
    (copied : request.copied = padded call.path) :
    Whole call ↔ call.asked.length < maxPathLength ∧ Separated call := by
  have asked : call.asked = call.path := by
    unfold Call.asked
    rw [absent]
  have separated : Separated call := by
    intro dir present
    rw [absent] at present
    cases present
  rw [whole_iff_passes requests, passes_iff plain plain opened copied, asked]
  exact ⟨fun whole => ⟨whole.1, separated⟩,
    fun short => ⟨short.1, short.1, rfl⟩⟩

theorem fileRequest_idle (idle : options.Idle) (path : List UInt8) :
    fileRequest path options = some (.error invalidInput) :=
  if_pos idle

theorem fileRequest_eq (busy : ¬ options.Idle) (path : List UInt8) :
    fileRequest path options =
      some (.ok ⟨padded path, padded path, options.toPosixFlags,
        some fileMode, none⟩) := by
  unfold fileRequest
  rw [lpath_eq]
  exact if_neg busy

theorem dirRequest_eq (path : List UInt8) (create : Bool) :
    dirRequest path create =
      some (.ok ⟨padded path, padded path, oRdonly ||| oDirectory, none,
        if create then some dirMode else none⟩) := by
  unfold dirRequest
  rw [lpath_eq]
  rfl

theorem atRequest_refused
    (refused : dir.handle = none ∨ options.Idle) (path : List UInt8) :
    atRequest dir path options = some (.error invalidInput) := by
  unfold atRequest
  split_ifs with invalid idle
  · rfl
  · rfl
  · exact absurd refused (not_or.mpr ⟨invalid, idle⟩)

theorem atRequest_eq
    (valid : ¬ (dir.handle = none ∨ options.Idle)) (path : List UInt8) :
    atRequest dir path options =
      (fullpath dir (padded path)).map fun fullpath =>
        .ok ⟨fullpath, padded path, options.toPosixFlags, some fileMode,
          none⟩ := by
  rw [not_or] at valid
  unfold atRequest
  rw [if_neg valid.1, lpath_eq]
  exact if_neg valid.2

theorem file_whole_iff
    (plain : 0 ∉ call.path) (absent : call.dir = none)
    (requests : call.request = fileRequest call.path options)
    (refused : Refused call ↔ options.Idle) : Whole call ↔ Fits call := by
  unfold Fits
  rw [refused]
  by_cases idle : options.Idle
  · rw [fileRequest_idle idle] at requests
    exact ⟨fun _ => .inl idle, fun _ => whole_of_error requests⟩
  · rw [fileRequest_eq idle] at requests
    rw [whole_iff_shorter plain absent requests rfl rfl]
    exact ⟨.inr, fun short => short.resolve_left idle⟩

/-- What is opened in a directory, unless the call is rejected. -/
theorem at_whole_iff_shorter
    (plain : Plain call) (within : call.dir = some dir)
    (valid : ¬ (dir.handle = none ∨ options.Idle))
    (requests : call.request = atRequest dir call.path options) :
    Whole call ↔ call.asked.length < maxPathLength ∧ Separated call := by
  rcases plain.dir dir within with ⟨sound, plainDir⟩
  have asked : call.asked = joined dir.path.str.asSlice call.path := by
    unfold Call.asked
    rw [within]
  have separated : Separated call ↔ dir.path.str.asSlice ≠ [] ∨
      call.path.head? = some pathSeparator := by
    unfold Separated
    rw [within]
    exact ⟨fun apart => apart dir rfl, fun apart _ same =>
      Option.some.inj same ▸ apart⟩
  rw [atRequest_eq valid] at requests
  rw [asked, separated]
  rcases Nat.lt_or_ge maxPathLength dir.path.str.asSlice.length with
    beyond | fits
  · rw [fullpath_beyond sound beyond] at requests
    constructor
    · rintro ⟨outcome, present, _⟩
      rw [requests] at present
      cases present
    · rintro ⟨short, _⟩
      unfold joined at short
      rw [List.length_append, List.length_append] at short
      omega
  · rw [fullpath_eq sound fits] at requests
    have plainText : 0 ∉ dir.path.str.asSlice ++
        added dir.path.str.asSlice call.path ++ call.path := by
      have plainAdded : 0 ∉ added dir.path.str.asSlice call.path := by
        unfold added
        split_ifs <;> decide
      rw [List.mem_append, List.mem_append, not_or, not_or]
      exact ⟨⟨plainDir, plainAdded⟩, plain.path⟩
    rw [whole_iff_passes requests, passes_iff plainText plain.path rfl rfl,
      asked, ← joined_iff]
    refine ⟨fun whole => whole.2, fun whole => ⟨?_, whole⟩⟩
    have short := whole.1
    rw [List.length_append] at short
    omega

theorem at_whole_iff
    (plain : Plain call) (within : call.dir = some dir)
    (requests : call.request = atRequest dir call.path options)
    (refused : Refused call ↔ dir.handle = none ∨ options.Idle) :
    Whole call ↔ Fits call := by
  unfold Fits
  rw [refused]
  by_cases rejects : dir.handle = none ∨ options.Idle
  · rw [atRequest_refused rejects] at requests
    exact ⟨fun _ => .inl rejects, fun _ => whole_of_error requests⟩
  · rw [at_whole_iff_shorter plain within rejects requests]
    exact ⟨.inr, fun short => short.resolve_left rejects⟩

/-! ## Directories -/

/-- The copy of a path takes one block, which is refused or granted. -/
theorem stringFromCstr_cases
    {allocator : Nat} {cstr : List UInt8} {grant : Grant UInt8}
    {held held' : Held} {pres : Except Text.CuteString.Error Path}
    (short : cstr.length ≤ maxPathLength)
    (copies : stringFromCstr allocator cstr grant held =
      some (pres, held')) :
    (grant = none ∧ (∃ err, pres = .error err) ∧ held' = held) ∨
      grant ≠ none ∧ ∃ path storage, pres = .ok path ∧
        path.allocator = allocator ∧ Kept path.str (cString cstr) ∧
        path.str.data = some storage ∧
        held' = { held with
          blocks := (allocator, storage.mem) :: held.blocks } := by
  have length : (cString cstr).length ≤ cstr.length :=
    (List.takeWhile_sublist _).length_le
  unfold stringFromCstr at copies
  split_ifs at copies
  rcases Option.map_eq_some_iff.mp copies with ⟨made, makes, same⟩
  change Str.fromSlice (cString cstr) grant = some made at makes
  by_cases refused : grant = none
  · rw [refused, fromSlice_refused] at makes
    cases makes
    cases same
    exact .inl ⟨refused, ⟨_, rfl⟩, rfl⟩
  · have small : (cString cstr).length < objectLimit := by
      unfold maxPathLength at short
      unfold objectLimit
      omega
    rcases fromSlice_granted refused small with ⟨str, makes', kept⟩
    rcases kept.block with ⟨storage, data, _⟩
    rw [makes'] at makes
    cases makes
    cases same
    refine .inr
      ⟨refused, ⟨allocator, str⟩, storage, rfl, rfl, kept, data, ?_⟩
    unfold Held.obtain
    rw [data]

/-- A path is opened when the system answers so. -/
theorem openPath_cases
    {system : System} {held between : Held} {opened : Except IoError Nat}
    (opens : openPath system request held = some (opened, between)) :
    (∃ errno, system.answer request = .error errno ∧
        opened = .error (fromErrno errno) ∧ between = held) ∨
      ∃ handle, system.answer request = .ok handle ∧
        opened = .ok handle ∧
        between = { held with handles := handle :: held.handles } := by
  unfold openPath at opens
  split_ifs at opens
  cases answers : system.answer request with
  | error errno =>
      rw [answers] at opens
      cases opens
      exact .inl ⟨errno, rfl, rfl, rfl⟩
  | ok handle =>
      rw [answers] at opens
      cases opens
      exact .inr ⟨handle, rfl, rfl, rfl⟩

/-- What is opened is not empty where the system never opens the empty path. -/
theorem answer_filled
    {system : System} {handle : Nat}
    (refuses : ∀ flags mode, ∃ errno,
      system.openFile [] flags mode = .error errno)
    (succeeds : system.answer request = .ok handle) :
    cString request.opened ≠ [] := by
  intro empty
  unfold System.answer at succeeds
  dsimp only at succeeds
  split at succeeds
  · cases succeeds
  · rcases refuses request.flags request.mode with ⟨errno, fails⟩
    rw [empty, fails] at succeeds
    cases succeeds

/--
The path of a directory that `cu_Dir_open` opened is a C string, and it is not
empty where the system does not open the empty path.
-/
theorem dirOpen_plain
    {create : Bool} {allocator : Nat} {system : System} {grants : Grants}
    {held held' : Held}
    (opens : dirOpen path create allocator system grants held =
      some (.ok dir, held')) :
    Sound dir.path.str ∧ 0 ∉ dir.path.str.asSlice ∧
      ((∀ flags mode, ∃ errno, system.openFile [] flags mode = .error errno) →
        dir.path.str.asSlice ≠ []) := by
  unfold dirOpen proceed at opens
  rw [dirRequest_eq] at opens
  dsimp only at opens
  unfold copyThenOpen at opens
  dsimp only at opens
  split at opens
  · cases opens
  · rename_i pres between copies
    split at opens
    · cases opens
    · cases opens
    · rename_i handle after opened
      split at opens
      · cases opens
      · rename_i made
        cases opens
        rcases stringFromCstr_cases (length_padded path).le copies with
          ⟨_, ⟨err, absent⟩, _⟩ | ⟨_, _, storage, same, _, kept, _, _⟩
        · cases absent
        cases same
        have bytes : made.str.asSlice = cString (padded path) := kept.bytes
        refine ⟨kept.sound, ?_, ?_⟩
        · rw [bytes]
          intro among
          have nonzero := List.all_eq_true.mp List.all_takeWhile _ among
          exact absurd nonzero (by decide)
        · intro refuses empty
          rw [bytes] at empty
          rcases openPath_cases opened with
            ⟨_, _, absent, _⟩ | ⟨handle, succeeds, _, _⟩
          · cases absent
          · exact answer_filled refuses succeeds empty

/-! ## The main result -/

/--
The main result: a call is rejected or gives the system the whole path that
was asked for, in buffers with a NUL, exactly when it fits.
-/
theorem paths_whole_iff (plain : Plain call) : Whole call ↔ Fits call := by
  cases call with
  | fileOpen path options allocator =>
      exact file_whole_iff plain.path rfl rfl Iff.rfl
  | dirOpen path create allocator =>
      have requests : (Call.dirOpen path create allocator).request = _ :=
        dirRequest_eq path create
      rw [whole_iff_shorter plain.path rfl requests rfl rfl]
      exact ⟨.inr, fun short => short.resolve_left id⟩
  | dirOpenat dir path options =>
      exact at_whole_iff plain rfl rfl Iff.rfl
  | fstreamOpen path options bufferSize allocator =>
      exact file_whole_iff plain.path rfl rfl Iff.rfl
  | fstreamOpenat dir path options bufferSize allocator =>
      exact at_whole_iff plain rfl rfl Iff.rfl

/-- A directory for reading files, whose path is `a`. -/
def directoryA : Dir :=
  ⟨some 3, ⟨0, ⟨some ⟨⟨64, 2⟩, [ascii 'a', 0]⟩, 1, 1⟩⟩⟩

def readOnly : Options := ⟨true, false, false, false, false⟩

/-- The file `b` in the directory `a` is opened as `a/b`. -/
theorem paths_whole_iff_joined :
    (Call.dirOpenat directoryA [ascii 'b'] readOnly).asked =
        [ascii 'a', ascii '/', ascii 'b'] ∧
      Whole (.dirOpenat directoryA [ascii 'b'] readOnly) := by
  have plain : Plain (.dirOpenat directoryA [ascii 'b'] readOnly) := by
    refine ⟨by decide, ?_⟩
    rintro _ ⟨⟩
    refine ⟨⟨nofun, ?_, by decide, by decide⟩, by decide⟩
    rintro _ ⟨⟩
    rfl
  refine ⟨by decide, (paths_whole_iff plain).mpr (.inr ⟨by decide, ?_⟩)⟩
  rintro _ ⟨⟩
  exact .inl (by decide)

/-- A path of 4096 characters leaves no room for a NUL. -/
theorem paths_not_whole :
    Plain (.fileOpen (List.replicate 4096 (ascii 'a')) readOnly 0) ∧
      ¬ Whole (.fileOpen (List.replicate 4096 (ascii 'a')) readOnly 0) := by
  have plain :
      0 ∉ (Call.fileOpen (List.replicate 4096 (ascii 'a')) readOnly 0).path :=
    fun among => absurd (List.eq_of_mem_replicate among) (by decide)
  refine ⟨⟨plain, nofun⟩, ?_⟩
  rw [file_whole_iff plain rfl rfl Iff.rfl]
  rintro (idle | ⟨shorter, _⟩)
  · exact absurd idle.1 (by decide)
  · change (List.replicate 4096 (ascii 'a')).length < 4096 at shorter
    rw [List.length_replicate] at shorter
    omega

end Libcute.Io.Opens
