import Mathlib.Data.List.Basic

/-!
# Formats of the printf family

A format is a text in which a percent sign starts a directive. What a directive writes for its
arguments is a parameter here; that it takes at least one argument is not. So a format is
copied as it is, with no argument taken, exactly if there is no percent sign in it.
-/

namespace Format

/-- A piece of a format. -/
inductive Piece where
  | char (c : UInt8)
  /-- `%%` -/
  | percent
  /-- a directive that takes arguments, by the characters behind its percent sign -/
  | conversion (spec : List UInt8)
  /-- a percent sign with no directive behind it -/
  | undefined
  deriving DecidableEq, Repr

/-- The flags, the digits and the star of a width, the point of a precision, and the letters of
a length: `# + - . * 0-9 space h j l t z L`. -/
def isModifier (c : UInt8) : Bool :=
  c ∈ [35, 43, 45, 46, 42, 32, 104, 106, 108, 116, 122, 76] || (48 ≤ c && c ≤ 57)

/-- The letters of a conversion: `d i o u x X e E f F g G a A c s p n`. -/
def isConversion (c : UInt8) : Bool :=
  c ∈ [100, 105, 111, 117, 120, 88, 101, 69, 102, 70, 103, 71, 97, 65, 99, 115, 112, 110]

/-- The pieces of a format. `some spec` is the state behind a percent sign and the characters
`spec`. -/
def pieces : Option (List UInt8) → List UInt8 → List Piece
  | none, [] => []
  | some _, [] => [.undefined]
  | none, c :: cs => if c = 37 then pieces (some []) cs else .char c :: pieces none cs
  | some spec, c :: cs =>
    if c = 37 ∧ spec = [] then .percent :: pieces none cs
    else if isModifier c then pieces (some (spec ++ [c])) cs
    else if isConversion c then .conversion (spec ++ [c]) :: pieces none cs
    else .undefined :: pieces none cs

/-- How many arguments a directive takes: one for each star, and its own. -/
def arity (spec : List UInt8) : Nat := spec.count 42 + 1

/-- What a directive writes if its first argument is the given one of the list. -/
abbrev Convert := List UInt8 → Nat → List UInt8

/-- The text written, and the number of arguments taken. -/
structure Output where
  text : List UInt8
  consumed : Nat
  deriving DecidableEq, Repr

/-- `o` with the text `cs` before its own. -/
def Output.behind (cs : List UInt8) (o : Output) : Output := ⟨cs ++ o.text, o.consumed⟩

/-- The output of some pieces when `n` arguments are taken already; none if it is undefined. -/
def render (convert : Convert) : Nat → List Piece → Option Output
  | n, [] => some ⟨[], n⟩
  | n, .char c :: ps => (render convert n ps).map (Output.behind [c])
  | n, .percent :: ps => (render convert n ps).map (Output.behind [37])
  | n, .conversion spec :: ps =>
    (render convert (n + arity spec) ps).map (Output.behind (convert spec n))
  | _, .undefined :: _ => none

/-- The output of a format. -/
def output (convert : Convert) (format : List UInt8) : Option Output :=
  render convert 0 (pieces none format)

/-- What `vsnprintf` stores in a buffer of `size` bytes, and the length it returns. -/
structure Printed where
  stored : List UInt8
  ret : Nat
  consumed : Nat
  deriving DecidableEq, Repr

/-- `vsnprintf` on a buffer of `size > 0` bytes: the text, cut to fit, and a NUL. -/
def vsnprintf (convert : Convert) (size : Nat) (format : List UInt8) : Option Printed :=
  (output convert format).map fun o => ⟨o.text.take (size - 1) ++ [0], o.text.length, o.consumed⟩

variable {convert : Convert}

/-- Arguments are only ever taken. -/
theorem le_consumed_of_render {n : Nat} {ps : List Piece} {o : Output}
    (h : render convert n ps = some o) : n ≤ o.consumed := by
  induction ps generalizing n o with
  | nil =>
    cases h
    exact Nat.le_refl n
  | cons p ps ih =>
    cases p with
    | char c =>
      obtain ⟨o', ho', rfl⟩ := Option.map_eq_some_iff.mp h
      have hle := ih ho'
      exact hle
    | percent =>
      obtain ⟨o', ho', rfl⟩ := Option.map_eq_some_iff.mp h
      have hle := ih ho'
      exact hle
    | conversion spec =>
      obtain ⟨o', ho', rfl⟩ := Option.map_eq_some_iff.mp h
      have hle := ih ho'
      exact Nat.le_trans (Nat.le_add_right n (arity spec)) hle
    | undefined => cases h

/-- What stands in front of the first percent sign is copied. -/
theorem render_append_plain (convert : Convert) {name : List UInt8} (h : 37 ∉ name)
    (format : List UInt8) (n : Nat) :
    render convert n (pieces none (name ++ format)) =
      (render convert n (pieces none format)).map (Output.behind name) := by
  induction name with
  | nil =>
    have hbehind : Output.behind [] = id := rfl
    rw [List.nil_append, hbehind, Option.map_id, id]
  | cons c cs ih =>
    rw [List.mem_cons, not_or] at h
    rw [List.cons_append, pieces, if_neg (Ne.symm h.1), render, ih h.2, Option.map_map]
    rfl

/-- Without a percent sign everything is copied. -/
theorem render_plain {format : List UInt8} (h : 37 ∉ format) (n : Nat) :
    render convert n (pieces none format) = some ⟨format, n⟩ := by
  induction format with
  | nil => rfl
  | cons c cs ih =>
    rw [List.mem_cons, not_or] at h
    rw [pieces, if_neg (Ne.symm h.1), render, ih h.2]
    rfl

/-- An output that takes no argument is at most as long as the rest of its format, and shorter
if a percent sign comes in it: the sign of a `%%` is lost. -/
theorem length_text_of_render {state : Option (List UInt8)} {format : List UInt8} {n : Nat}
    {o : Output} (h : render convert n (pieces state format) = some o) (hn : o.consumed = n) :
    o.text.length ≤ format.length ∧
      (state = none → 37 ∈ format → o.text.length < format.length) := by
  induction format generalizing state o with
  | nil =>
    cases state with
    | none =>
      cases h
      simp
    | some spec => cases h
  | cons c cs ih =>
    cases state with
    | none =>
      rw [pieces] at h
      split at h
      · have hle := (ih h hn).1
        simp only [List.length_cons]
        exact ⟨by omega, fun _ _ => by omega⟩
      · rename_i hc
        obtain ⟨o', ho', rfl⟩ := Option.map_eq_some_iff.mp h
        obtain ⟨hle, hlt⟩ := ih ho' hn
        simp only [Output.behind, List.length_append, List.length_cons, List.length_nil]
        refine ⟨by omega, fun _ hmem => ?_⟩
        have htail : 37 ∈ cs := (List.mem_cons.mp hmem).resolve_left (Ne.symm hc)
        have := hlt rfl htail
        omega
    | some spec =>
      refine ⟨?_, nofun⟩
      rw [pieces] at h
      split at h
      · obtain ⟨o', ho', rfl⟩ := Option.map_eq_some_iff.mp h
        have := (ih ho' hn).1
        simp only [Output.behind, List.length_append, List.length_cons, List.length_nil]
        omega
      · split at h
        · have := (ih h hn).1
          simp only [List.length_cons]
          omega
        · split at h
          · -- a conversion takes an argument
            obtain ⟨o', ho', rfl⟩ := Option.map_eq_some_iff.mp h
            have hle := le_consumed_of_render ho'
            simp only [Output.behind, arity] at hn hle
            omega
          · cases h

/-- A format is copied with no argument taken exactly if there is no percent sign in it. -/
theorem output_verbatim_iff (convert : Convert) (format : List UInt8) :
    output convert format = some ⟨format, 0⟩ ↔ 37 ∉ format := by
  constructor
  · intro h hmem
    exact Nat.lt_irrefl _ ((length_text_of_render h rfl).2 rfl hmem)
  · intro h
    exact render_plain h 0

end Format
