import Mathlib

/-! Texts printed with `%d`. What has been printed can be read back where every number is
followed by something that is not a digit. -/
namespace Zerver.Format

inductive Directive where
  | text (c : Char)
  | number
  deriving DecidableEq, Repr

def parse : List Char → List Directive
  | '%' :: 'd' :: format => .number :: parse format
  | c :: format => .text c :: parse format
  | [] => []

/-- Each `%d` takes the next number. -/
def print : List Directive → List Nat → List Char
  | .number :: format, n :: args => Nat.toDigits 10 n ++ print format args
  | .number :: format, [] => print format []
  | .text c :: format, args => c :: print format args
  | [], _ => []

/-- What fits in front of the terminating null of a buffer. -/
def snprintf (size : Nat) (format : String) (args : List Nat) : String :=
  String.ofList ((print (parse format.toList) args).take (size - 1))

def arity (format : List Directive) : Nat := format.count .number

/-- What a format prints besides digits. -/
def letters : List Directive → List Char
  | .number :: format => letters format
  | .text c :: format => if c.isDigit then letters format else c :: letters format
  | [] => []

/-- No number is followed by a digit. -/
def Separated : List Directive → Bool
  | .number :: .text c :: format => !c.isDigit && Separated format
  | .number :: .number :: _ => false
  | .text _ :: format => Separated format
  | _ => true

theorem filter_digits (digits : List Char) (all : ∀ c ∈ digits, c.isDigit) :
    digits.filter (fun c => !c.isDigit) = [] := by
  rw [List.filter_eq_nil_iff]
  intro c member
  simp [all c member]

theorem isDigit_toDigits (n : Nat) : ∀ c ∈ Nat.toDigits 10 n, c.isDigit :=
  fun _ member => Nat.isDigit_of_mem_toDigits (by decide) (by decide) member

theorem filter_print (format : List Directive) (args : List Nat) :
    (print format args).filter (fun c => !c.isDigit) = letters format := by
  fun_induction print format args with
  | case1 format n args ih => rw [List.filter_append,filter_digits _ (isDigit_toDigits n),List.nil_append,letters,ih]
  | case2 format ih => rw [letters,ih]
  | case3 c format args ih =>
    rw [List.filter_cons,ih,letters]
    cases c.isDigit <;> rfl
  | case4 => rfl

theorem digits_append (digits more rest others : List Char) (one : ∀ c ∈ digits, c.isDigit)
    (two : ∀ c ∈ more, c.isDigit) (apart : rest.head?.all fun c => !c.isDigit)
    (apart' : others.head?.all fun c => !c.isDigit) (same : digits ++ rest = more ++ others) :
    digits = more ∧ rest = others := by
  induction digits generalizing more with
  | nil =>
    cases more with
    | nil => exact ⟨rfl,same⟩
    | cons digit more =>
      obtain rfl : rest = digit :: (more ++ others) := same
      simp [two digit] at apart
  | cons digit digits ih =>
    cases more with
    | nil =>
      obtain rfl : digit :: (digits ++ rest) = others := same
      simp [one digit] at apart'
    | cons other more =>
      obtain ⟨rfl,tail⟩ := List.cons.inj same
      obtain ⟨rfl,after⟩ := ih more (fun c member => one c (by simp [member]))
        (fun c member => two c (by simp [member])) tail
      exact ⟨rfl,after⟩

theorem separated_number (separated : Separated (.number :: format)) (args : List Nat) :
    (print format args).head?.all (fun c => !c.isDigit) ∧ Separated format := by
  cases format with
  | nil => exact ⟨rfl,rfl⟩
  | cons first format =>
    cases first with
    | number => cases separated
    | text c =>
      have valid := Bool.and_eq_true_iff.mp separated
      exact ⟨valid.1,valid.2⟩

theorem print_injective (separated : Separated format) (args others : List Nat)
    (one : args.length = arity format) (two : others.length = arity format)
    (same : print format args = print format others) : args = others := by
  induction format generalizing args others with
  | nil =>
    rw [List.length_eq_zero_iff.mp one,List.length_eq_zero_iff.mp two]
  | cons first format ih =>
    cases first with
    | text c =>
      have kept : arity (.text c :: format) = arity format := List.count_cons_of_ne (by simp)
      exact ih separated args others (one.trans kept) (two.trans kept) (List.cons.inj same).2
    | number =>
      have more : arity (.number :: format) = arity format + 1 := List.count_cons_self
      cases args with
      | nil => simp [more] at one
      | cons n args =>
        cases others with
        | nil => simp [more] at two
        | cons m others =>
          obtain ⟨number,rest⟩ := digits_append _ _ _ _ (isDigit_toDigits n) (isDigit_toDigits m)
            (separated_number separated args).1 (separated_number separated others).1 same
          have here : n = m := Nat.repr_injective (by rw [Nat.repr,Nat.repr,number])
          rw [here,ih (separated_number separated args).2 args others (by simpa [more] using one) (by simpa [more] using two) rest]

/-- A short format fits its buffer: a number of the bound takes ten digits at most. -/
theorem length_print (format : List Directive) (args : List Nat) (bound : ∀ n ∈ args, n < 10 ^ 10) :
    (print format args).length ≤ format.length + 10 * args.length := by
  fun_induction print format args with
  | case1 format n args ih =>
    have digits : (Nat.toDigits 10 n).length ≤ 10 :=
      (Nat.length_toDigits_le_iff (by decide) (by decide)).mpr (bound n (by simp))
    have rest := ih fun m member => bound m (by simp [member])
    simp only [List.length_append,List.length_cons]
    omega
  | case2 format ih =>
    have rest := ih (by simp)
    simp only [List.length_cons] at rest ⊢
    omega
  | case3 c format args ih =>
    have rest := ih bound
    simp only [List.length_cons]
    omega
  | case4 => simp

/-- Texts that fit are equal only where the letters of their formats are. -/
theorem snprintf_letters (size : Nat) (format other : String) (args others : List Nat)
    (fits : (print (parse format.toList) args).length ≤ size - 1)
    (fits' : (print (parse other.toList) others).length ≤ size - 1)
    (same : snprintf size format args = snprintf size other others) :
    letters (parse format.toList) = letters (parse other.toList) ∧
      print (parse format.toList) args = print (parse other.toList) others := by
  have texts : print (parse format.toList) args = print (parse other.toList) others := by
    have chars := congrArg String.toList same
    simpa [snprintf,List.take_of_length_le fits,List.take_of_length_le fits'] using chars
  exact ⟨by rw [← filter_print,texts,filter_print],texts⟩

end Zerver.Format
