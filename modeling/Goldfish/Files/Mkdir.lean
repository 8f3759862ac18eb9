import Goldfish.Files.SystemCalls
import Goldfish.Lib.Blocks

/-!
# Goldfish.Files.Mkdir

**Making directories** (`path_mkdir_recursive` and `path_mkdir_if_needed` in `path.cpp`,
with `pathExistsInternal` of `System.cpp`).

The recursion plants terminators in its buffer and puts back what was there. So it leaves
the buffer as it was, and does what `makeAll` does without one (`path_mkdir_recursive_eq`).
The last component of a path is what its parent's components lack (`components_parentPart`).
-/

namespace Goldfish.Files.Mkdir

open Goldfish.Lib PathParent SystemCalls

/-- The size of the buffer. -/
def MAX_PATH : Nat := PATH_MAX

/-- The file system, and `errno` where −1 is returned. -/
abbrev Made := FileTree Name × Option Errno

/-! ### The functions -/

/-- Without the separators at the end. -/
def trim (path : Text) : Text := path.rdropWhile ispathsep

/-- What is before the last component. -/
def parentPart (path : Text) : Text := path.dropLast.rdropWhile fun c => !ispathsep c

theorem trim_starts (path : Text) : trim path <+: path := List.rdropWhile_prefix ispathsep path

theorem parentPart_starts (path : Text) : parentPart path <+: path :=
  (List.rdropWhile_prefix _ path.dropLast).trans (List.dropLast_prefix path)

theorem length_parentPart_lt {path : Text} (h : trim path ≠ []) : (parentPart (trim path)).length < path.length := by
  have hpos := List.length_pos_iff.mpr h
  have hparent := (List.rdropWhile_prefix (fun c => !ispathsep c) (trim path).dropLast).length_le
  have htrim := (trim_starts path).length_le
  rw [List.length_dropLast] at hparent
  unfold parentPart
  omega

section Functions

variable (p : Process)

/-- `pathExistsInternal` -/
def path_exists (t : FileTree Name) (path : Text) : Bool :=
  if path = [] then false
  else
    match p.resolve t path with
    | .ok _ => true
    | .error e => e ≠ .ENOENT

/-- What a new directory's mode allows is in the rights of the process. -/
def path_android_mkdir (path : Text) (t : FileTree Name) : Made :=
  match p.mkdir t path with
  | .ok t' => (t', none)
  | .error e => (t, some e)

/-- `path` is the buffer; in the end it is returned with what has been made. -/
def path_mkdir_recursive (path : Text) (len : Nat) (t : FileTree Name) : Except OutOfBlock (Text × Made) :=
  let trimmed := trim (path.take len)
  if h : trimmed = [] then .ok (path, t, some .ENOENT)
  else
    let parent := parentPart trimmed
    have : parent.length < len := (length_parentPart_lt h).trans_le (List.length_take_le len path)
    -- the parent
    (if 0 < parent.length then
      (load path parent.length).bind fun old_c =>
        (store path parent.length 0).bind fun planted =>
          (if path_exists p t (cString planted) then .ok (planted, t, none)
          else path_mkdir_recursive planted parent.length t).bind fun r =>
            (store r.1 parent.length old_c).map fun path => (path, r.2)
    else .ok (path, t, none)).bind fun r =>
      match r.2 with
      | (_, some _) => .ok r
      | (t, none) =>
        (load r.1 trimmed.length).bind fun old_c =>
          (store r.1 trimmed.length 0).bind fun planted =>
            (store planted trimmed.length old_c).map fun path =>
              (path, path_android_mkdir p (cString planted) t)
termination_by len

end Functions

/-- An array on the stack. -/
structure Uninitialised where
  bytes : Text
  size : bytes.length = MAX_PATH

/-- `path_mkdir_if_needed`, with the errno that is left. -/
def path_mkdir_if_needed (p : Process) (temp : Uninitialised) (path : Text) (t : FileTree Name) :
    Except OutOfBlock Made :=
  if path_exists p t path then .ok (t, none)
  else
    let made := path_android_mkdir p path t
    if made.2 = some .ENOENT then
      if MAX_PATH - 1 < path.length then .ok (made.1, some .EINVAL)
      else
        (store (path ++ temp.bytes.drop path.length) path.length 0).bind fun temp =>
          (path_mkdir_recursive p temp path.length made.1).map Prod.snd
    else .ok made

/-! ### The buffer -/

/-- The same without the buffer. -/
def makeAll (p : Process) (path : Text) (t : FileTree Name) : Made :=
  let trimmed := trim path
  if h : trimmed = [] then (t, some .ENOENT)
  else
    let parent := parentPart trimmed
    have : parent.length < path.length := length_parentPart_lt h
    match if parent = [] ∨ path_exists p t parent = true then (t, none) else makeAll p parent t with
    | (t, some e) => (t, some e)
    | (t, none) => path_android_mkdir p trimmed t
termination_by path.length

section Buffer

variable {p : Process} {t : FileTree Name} {path : Text} {len : Nat}

/-- A terminator is planted, and the character that was there is put back. -/
theorem plant (hlen : len < path.length) (hz : 0 ∉ path.take len) :
    ∃ old_c planted, load path len = .ok old_c ∧ store path len 0 = .ok planted ∧ planted.length = path.length ∧
      cString planted = path.take len ∧ planted.take len = path.take len ∧ store planted len old_c = .ok path := by
  have hpath : path = path.take len ++ path[len] :: path.drop (len + 1) := by
    rw [List.getElem_cons_drop, List.take_append_drop]
  have hlength : (path.take len).length = len := List.length_take_of_le hlen.le
  refine ⟨path[len], path.take len ++ 0 :: path.drop (len + 1), load_at _ _ hpath hlength.symm,
    store_at _ _ hpath hlength.symm 0, ?_, ?_, ?_, ?_⟩
  · simp
    omega
  · rw [cString, List.takeWhile_append_of_pos fun c hc => by simpa using fun h0 : c = 0 => hz (h0 ▸ hc)]
    simp
  · rw [List.take_append_of_le_length hlength.ge, List.take_of_length_le hlength.le]
  · rw [store_at _ _ rfl hlength.symm, ← hpath]

/-- What is before a position, when it is in front of another one without terminators. -/
theorem take_of_starts {front : Text} (h : front <+: path.take len) : path.take front.length = front :=
  (List.prefix_iff_eq_take.mp (h.trans (List.take_prefix len path))).symm

/-- **The buffer** is left as it was. -/
theorem path_mkdir_recursive_eq (hlen : len < path.length) (hz : 0 ∉ path.take len) :
    path_mkdir_recursive p path len t = .ok (path, makeAll p (path.take len) t) := by
  induction len using Nat.strongRecOn generalizing path t with
  | ind len ih =>
    rw [path_mkdir_recursive, makeAll]
    dsimp only
    split
    · rfl
    · rename_i h
      have hlt := (length_parentPart_lt h).trans_le (List.length_take_le len path)
      have htrim := trim_starts (path.take len)
      have hparent := (parentPart_starts (trim (path.take len))).trans htrim
      have hshort := htrim.length_le
      rw [List.length_take] at hshort
      generalize trim (path.take len) = trimmed at htrim hparent hshort hlt ⊢
      generalize parentPart trimmed = parent at hparent hlt ⊢
      have hz' : ∀ front : Text, front <+: path.take len → 0 ∉ path.take front.length := by
        intro front hfront
        rw [take_of_starts hfront]
        exact fun h0 => hz (hfront.subset h0)
      -- the parent
      have hfirst : (if 0 < parent.length then
            (load path parent.length).bind fun old_c =>
              (store path parent.length 0).bind fun planted =>
                (if path_exists p t (cString planted) then .ok (planted, t, none)
                else path_mkdir_recursive p planted parent.length t).bind fun r =>
                  (store r.1 parent.length old_c).map fun path => (path, r.2)
          else .ok (path, t, none)) =
          .ok (path, if parent = [] ∨ path_exists p t parent = true then (t, none) else makeAll p parent t) := by
        by_cases hnil : parent = []
        · simp [hnil]
        · obtain ⟨old_c, planted, hload, hstore, hlength, hcString, htake, hrestore⟩ :=
            plant (hlt.trans hlen) (hz' parent hparent)
          rw [take_of_starts hparent] at hcString htake
          rw [if_pos (List.length_pos_iff.mpr hnil), hload, hstore]
          simp only [Except.bind, hcString, hnil, false_or]
          by_cases hexists : path_exists p t parent = true
          · simp [hexists, hrestore, Except.map]
          · have hz'' : 0 ∉ planted.take parent.length := by
              rw [htake]
              exact fun h0 => hz (hparent.subset h0)
            have hrec := ih parent.length hlt (t := t) (hlength ▸ hlt.trans hlen) hz''
            rw [htake] at hrec
            simp [hexists, hrec, hrestore, Except.map]
      rw [hfirst]
      simp only [Except.bind]
      cases hstage : if parent = [] ∨ path_exists p t parent = true then (t, none) else makeAll p parent t with
      | mk t' ret =>
        cases ret with
        | some e => rfl
        | none =>
          obtain ⟨old_c, planted, hload, hstore, -, hcString, -, hrestore⟩ :=
            plant (by omega) (hz' trimmed htrim)
          rw [take_of_starts htrim] at hcString
          simp only [hload, hstore, hcString, hrestore, Except.map]

/-- `path_mkdir_if_needed` without the buffer. -/
def makeIfNeeded (p : Process) (path : Text) (t : FileTree Name) : Made :=
  if path_exists p t path then (t, none)
  else
    let made := path_android_mkdir p path t
    if made.2 = some .ENOENT then makeAll p path made.1 else made

theorem path_mkdir_if_needed_eq (temp : Uninitialised) (hz : 0 ∉ path) (hpath : path.length < MAX_PATH) :
    path_mkdir_if_needed p temp path t = .ok (makeIfNeeded p path t) := by
  unfold path_mkdir_if_needed makeIfNeeded
  dsimp only
  split
  · rfl
  · split
    · have hsize := temp.size
      have htemp : path ++ temp.bytes.drop path.length =
          path ++ temp.bytes[path.length] :: temp.bytes.drop (path.length + 1) := by
        rw [List.drop_eq_getElem_cons (by omega)]
      have htake : (path ++ 0 :: temp.bytes.drop (path.length + 1)).take path.length = path := by simp
      rw [if_neg (by omega), store_at _ _ htemp rfl, Except.bind,
        path_mkdir_recursive_eq (by simp) (by rwa [htake]), htake]
      rfl
    · rfl

end Buffer

/-! ### Components -/

section Components

variable {p : Process} {t : FileTree Name} {path : Text}

theorem components_append_of_ispathsep {seps : Text} (h : ∀ c ∈ seps, ispathsep c = true) (path : Text) :
    components (path ++ seps) = components path := by
  induction seps generalizing path with
  | nil => rw [List.append_nil]
  | cons c seps ih =>
    obtain rfl : c = '/'.toUInt8 := of_decide_eq_true (h c List.mem_cons_self)
    have hseps := ih (fun c hc => h c (List.mem_cons_of_mem _ hc)) []
    rw [components_append, ← List.nil_append seps, hseps, components_nil, List.append_nil]

theorem components_trim (path : Text) : components (trim path) = components path := by
  have hpath : trim path ++ path.rtakeWhile ispathsep = path := List.rdropWhile_append_rtakeWhile
  conv_rhs => rw [← hpath]
  exact (components_append_of_ispathsep (fun c hc => List.mem_rtakeWhile_imp hc) _).symm

theorem exists_component {name : Text} (hname : name ≠ []) (hsep : ∀ c ∈ name, ispathsep c = false) :
    ∃ c, components name = [c] := by
  rw [components, pieces, List.splitOnP_eq_singleton hsep]
  by_cases hdot : name = dot
  · exact ⟨.here, by simp [component, hdot]⟩
  · by_cases hdotdot : name = dotdot
    · exact ⟨.up, by simp [component, hdotdot, show dotdot ≠ dot by decide]⟩
    · have hvalid : IsEntryName name := ⟨hname, hdot, hdotdot, hsep⟩
      exact ⟨.name ⟨name, hvalid⟩, by simp [component, hdot, hdotdot, hvalid]⟩

theorem absolute_of_prefix {front : Text} (h : front <+: path) (hne : front ≠ []) :
    absolute front = absolute path := by
  obtain ⟨rest, rfl⟩ := h
  obtain ⟨c, front, rfl⟩ := List.exists_cons_of_ne_nil hne
  rfl

theorem components_append_of_slash {parent : Text} (h : ∀ hne : parent ≠ [], ispathsep (parent.getLast hne) = true)
    (name : Text) : components (parent ++ name) = components parent ++ components name := by
  by_cases hnil : parent = []
  · rw [hnil, components_nil]
    rfl
  · have hparent : parent.dropLast ++ ['/'.toUInt8] = parent := by
      rw [← of_decide_eq_true (h hnil), List.dropLast_append_getLast]
    rw [← hparent, List.append_assoc, List.singleton_append, components_append, components_append, components_nil,
      List.append_nil]

/-- The last component of a path, and what is before it. -/
theorem components_parentPart (h : trim path ≠ []) :
    ∃ c, components path = components (parentPart (trim path)) ++ [c] := by
  have hlast : ispathsep ((trim path).getLast h) = false := by
    exact Bool.eq_false_iff.mpr (List.rdropWhile_last_not ispathsep path h)
  have hconcat : (trim path).dropLast ++ [(trim path).getLast h] = trim path := List.dropLast_append_getLast h
  have hparent : parentPart (trim path) = (trim path).rdropWhile fun c => !ispathsep c := by
    conv_rhs => rw [← hconcat]
    exact (List.rdropWhile_concat_pos _ _ _ (by simp [hlast])).symm
  have htrim : parentPart (trim path) ++ (trim path).rtakeWhile (fun c => !ispathsep c) = trim path := by
    rw [hparent, List.rdropWhile_append_rtakeWhile]
  have hname : (trim path).rtakeWhile (fun c => !ispathsep c) ≠ [] := by
    conv_lhs => rw [← hconcat]
    rw [List.rtakeWhile_concat_pos _ _ _ (by simp [hlast])]
    simp
  obtain ⟨c, hc⟩ := exists_component hname fun c hc => by simpa using List.mem_rtakeWhile_imp hc
  refine ⟨c, ?_⟩
  rw [← components_trim]
  conv_lhs => rw [← htrim]
  rw [components_append_of_slash (fun hne => ?_), hc]
  have hsep := List.rdropWhile_last_not (fun c => !ispathsep c) (trim path).dropLast hne
  rw [Bool.not_eq_true, Bool.not_eq_false'] at hsep
  exact hsep

end Components

end Goldfish.Files.Mkdir
