import SoftwareFactory.Adapters.CredentialForms
import Mathlib.Data.List.Forall2

namespace SoftwareFactory.Sanitizer

open Regex Redaction

def valuePatterns : List Pattern := [patternUrlKey,patternHeaderGoog,patternHeaderAuth]

def valueForms : List (Form Char) := [urlForm,headerForm,bearerForm]

/-- The value that is looked for on account of a variable. -/
def Configured (environ : String → Option (List Char)) (envName : String) (v : List Char) : Prop :=
  ∃ val,environ envName = some val ∧ val ≠ [] ∧ v = cleaned val ∧ 4 ≤ v.length

def envKind (environ : String → Option (List Char)) (envName : String) : Kind Char :=
  fun s gone i e q => ∃ v,Configured environ envName v ∧ Literal s gone v i e q

def formKind (f : Form Char) : Kind Char := fun s gone => f.Stands redactedReplacement s gone

/-- What is taken out of a text: the values of the environment and, of what these leave, the
values of parameters, of headers and of tokens. -/
def kinds (environ : String → Option (List Char)) : List (Kind Char) :=
  secretEnvKeys.map (envKind environ)++valueForms.map formKind

/-- The passes in the order in which they run. -/
def passes (environ : String → Option (List Char)) : List (List Char → List Char) :=
  secretEnvKeys.map (fun envName msg => redactValue environ msg envName)++
    valuePatterns.map fun r => r.sub (keepGroup redactedReplacement)

/-- A match of a pattern, `g` being its name and `t` its value, which stands nowhere else in the
text and not in the marker. -/
structure SoleMatch (r : Pattern) (text x g t y : List Char) : Prop where
  place : text = x++(g++(t++y))
  found : (r.first x.reverse (g++(t++y))).map (fun m => (m.text,m.groups)) = some (g++t,[g])
  once : ∀ i ≤ text.length,∀ j ≤ text.length,t <+: text.drop i → t <+: text.drop j → i = j
  foreign : ¬ t <:+: redactedReplacement

section environment

variable {environ : String → Option (List Char)} {envName : String}

theorem Configured.ne_nil {v : List Char} (h : Configured environ envName v) : v ≠ [] := by
  obtain ⟨val,-,-,-,hlen⟩ := h
  apply List.ne_nil_of_length_pos
  omega

end environment

namespace SoleMatch

variable {r : Pattern} {text x g t y : List Char}

theorem value {a : Pattern} {p : Char → Bool} {n : Nat} (hfree : a.free = true)
    (hplain : a.plain = true) (hn : 0 < n)
    (h : SoleMatch (.seq (.group a) (.many p n)) text x g t y) : t ≠ [] ∧ ∀ c ∈ t,p c = true := by
  obtain ⟨m,hm,hfound⟩ := Option.map_eq_some_iff.mp h.found
  obtain ⟨htext,hgroups⟩ := Prod.mk.inj hfound
  obtain ⟨g',w,rest,-,-,hw,hlen,-,hall,hgroup⟩ := Pattern.first_group_many hfree hplain hm
  rw [hgroups] at hgroup
  obtain rfl := (List.cons.inj hgroup).1
  rw [htext] at hall
  rw [List.append_cancel_left hall]
  exact ⟨List.ne_nil_of_length_pos (by omega),hw⟩

/-- The one place of the value. -/
theorem here (h : SoleMatch r text x g t y) : t <+: text.drop (x++g).length := by
  have hplace : text = (x++g)++(t++y) := by rw [h.place,List.append_assoc]
  rw [hplace,List.drop_left]
  exact List.prefix_append t y

theorem unique {i : Nat} (hne : t ≠ []) (h : SoleMatch r text x g t y) (hi : t <+: text.drop i) :
    i = (x++g).length := by
  have hpos := List.length_pos_iff.mpr hne
  have hplaced {i : Nat} (hi : t <+: text.drop i) : i ≤ text.length := by
    have hlen := hi.length_le
    rw [List.length_drop] at hlen
    omega
  exact h.once i (hplaced hi) _ (hplaced h.here) hi h.here

end SoleMatch

section values

variable {environ : String → Option (List Char)} {r : Pattern} {text x g t y : List Char}

end values

end SoftwareFactory.Sanitizer
