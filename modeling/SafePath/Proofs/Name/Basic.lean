import SafePath.Name.Basic
import SafePath.Proofs.Utf8.Text

/-!
# The form of a name

Bytes come back as text or as bytes, as the name was given; as text only if they are UTF-8, and then
they are the bytes of that text.
-/

namespace SafePath.Name

/-- Both names are text, or both are bytes. -/
def SameForm : Name → Name → Prop
  | .text _, .text _ => True
  | .bytes _, .bytes _ => True
  | _, _ => False

theorem SameForm.trans {a b c : Name} (hab : a.SameForm b) (hbc : b.SameForm c) : a.SameForm c := by
  cases a <;> cases b <;> cases c <;> trivial

theorem SameForm.withBytes_eq {a b : Name} (h : a.SameForm b) (data : Bytes) :
    a.withBytes data = b.withBytes data := by
  cases a with
  | text t =>
    cases b with
    | text t' => rfl
    | bytes d => exact h.elim
  | bytes d =>
    cases b with
    | text t => exact h.elim
    | bytes d' => rfl

theorem toBytes_eq_nil_iff (name : Name) : name.toBytes = [] ↔ name.isEmpty = true := by
  cases name with
  | text t => rw [toBytes, Text.encode_eq_nil_iff, isEmpty, List.isEmpty_iff]
  | bytes b => rw [toBytes, isEmpty, List.isEmpty_iff]

theorem exists_withBytes_of_wellFormed {data : Bytes} (h : Utf8.WellFormed data) (form : Name) :
    ∃ name, form.withBytes data = .ok name ∧ name.toBytes = data ∧ name.SameForm form := by
  cases form with
  | text t =>
    obtain ⟨t', hdecode, hencode⟩ := h.exists_decode
    exact ⟨.text t', by rw [withBytes, hdecode], hencode, trivial⟩
  | bytes b => exact ⟨.bytes data, rfl, rfl, trivial⟩

end SafePath.Name
