import FakeLibc.Lib.Names

namespace FakeLibc.ExtensionStrings

open FakeLibc.Lib.Names

abbrev Text := List Char

abbrev EGLint := Int

def eglExtensions : EGLint := 0x3055

/-- `snprintf(buf, size, "%s", text)` -/
def snprintf (size : Nat) (text : Text) : Text := text.take (size - 1)

/-- `real_eglQueryString` for the display that is asked about. -/
abbrev Real := EGLint → Option Text

def commonNames : Text :=
  "EGL_HYBRIS_native_buffer2 EGL_HYBRIS_WL_acquire_native_buffer ".toList ++
    "EGL_WL_bind_wayland_display ".toList

/-- There is no blank between the driver's string and the first name. -/
def eglplatformcommonEglQueryString (name : EGLint) (real : Real) : Option Text :=
  if name = eglExtensions then some (snprintf 1022 ((real name).getD [] ++ commonNames))
  else real name

def waylandNames : Text :=
  "EGL_EXT_swap_buffers_with_damage EGL_WL_create_wayland_buffer_from_image".toList

def waylandwsEglQueryString (name : EGLint) (real : Real) : Option Text :=
  match eglplatformcommonEglQueryString name real with
  | none => none
  | some ret =>
    if name = eglExtensions then some (snprintf 1022 (ret ++ " ".toList ++ waylandNames))
    else some ret

def extensions (s : Option Text) : List Text := names ' ' (s.getD [])

def nativeBuffer2 : Text := "EGL_HYBRIS_native_buffer2".toList

def acquireNativeBuffer : Text := "EGL_HYBRIS_WL_acquire_native_buffer".toList

def bindWaylandDisplay : Text := "EGL_WL_bind_wayland_display".toList

def commonExtensions : List Text := [nativeBuffer2, acquireNativeBuffer, bindWaylandDisplay]

def waylandExtensions : List Text :=
  ["EGL_EXT_swap_buffers_with_damage".toList, "EGL_WL_create_wayland_buffer_from_image".toList]

/-- Each function adds its own names to those it gets. -/
structure Extended (real : Real) : Prop where
  common : ∀ n, n ∈ extensions (eglplatformcommonEglQueryString eglExtensions real) ↔
    n ∈ extensions (real eglExtensions) ∨ n ∈ commonExtensions
  wayland : ∀ n, n ∈ extensions (waylandwsEglQueryString eglExtensions real) ↔
    n ∈ extensions (eglplatformcommonEglQueryString eglExtensions real) ∨ n ∈ waylandExtensions

/-- The driver's last name, the first new one and the two joined also stand before. -/
structure Masked (s : Text) : Prop where
  lost : last ' ' s ∈ names ' ' (front ' ' s) ∨ last ' ' s = acquireNativeBuffer ∨
    last ' ' s = bindWaylandDisplay
  first : nativeBuffer2 ∈ names ' ' (front ' ' s)
  joined : last ' ' s ++ nativeBuffer2 ∈ names ' ' (front ' ' s)

/-- Up to 858 characters nothing is cut, and the driver's string is empty or ends
with a blank, or the joint is masked. Beyond, all that is cut or joined is spared. -/
def Safe (s : Text) : Prop :=
  if s.length ≤ 858 then (∀ c ∈ s.getLast?, c = ' ') ∨ Masked s
  else Spared ' ' 1021 s commonNames ∧ Spared ' ' 1021 s (commonNames ++ ' ' :: waylandNames)

theorem names_waylandNames : names ' ' waylandNames = waylandExtensions := by
  decide +kernel

def others : Text := "EGL_HYBRIS_WL_acquire_native_buffer EGL_WL_bind_wayland_display ".toList

theorem commonNames_eq : commonNames = nativeBuffer2 ++ ' ' :: others := by
  decide +kernel

theorem names_others : names ' ' others = [acquireNativeBuffer, bindWaylandDisplay] := by
  decide +kernel

theorem names_append_commonNames (s : Text) : names ' ' (s ++ commonNames) =
    names ' ' (front ' ' s) ++ (last ' ' s ++ nativeBuffer2) ::
      [acquireNativeBuffer, bindWaylandDisplay] := by
  have hblank : ' ' ∉ last ' ' s ++ nativeBuffer2 := by
    rw [List.mem_append, not_or]
    exact ⟨notMem_last ' ' s, by decide +kernel⟩
  have hne : last ' ' s ++ nativeBuffer2 ≠ [] := by
    intro h
    exact absurd (List.append_eq_nil_iff.mp h).2 (by decide +kernel)
  conv_lhs => rw [← front_append_last ' ' s]
  rw [List.append_assoc, names_front_append, commonNames_eq, ← List.append_assoc,
    names_append_sep, names_of_notMem hblank hne, names_others]
  rfl

theorem names_commonNames : names ' ' commonNames = commonExtensions :=
  names_append_commonNames []

theorem length_commonNames : commonNames.length = 90 := by
  decide +kernel

theorem length_waylandNames : waylandNames.length = 72 := by
  decide +kernel

theorem take_take_append (k : Nat) (s t : Text) : ((s.take k) ++ t).take k = (s ++ t).take k := by
  rw [List.take_append, List.take_take, Nat.min_self, List.take_append, List.length_take]
  by_cases hk : k ≤ s.length
  · rw [Nat.min_eq_left hk, Nat.sub_self, Nat.sub_eq_zero_of_le hk]
  · rw [Nat.min_eq_right (Nat.le_of_not_le hk)]

theorem extended_iff_adds (real : Real) : Extended real ↔
    Adds ' ' 1021 ((real eglExtensions).getD []) commonNames ∧
      Adds ' ' 1021 ((real eglExtensions).getD []) (commonNames ++ ' ' :: waylandNames) := by
  have hcommon : extensions (eglplatformcommonEglQueryString eglExtensions real) =
      names ' ' (((real eglExtensions).getD [] ++ commonNames).take 1021) := by
    rw [eglplatformcommonEglQueryString, if_pos rfl]
    rfl
  have hwayland : extensions (waylandwsEglQueryString eglExtensions real) =
      names ' ' (((real eglExtensions).getD [] ++ (commonNames ++ ' ' :: waylandNames)).take
        1021) := by
    rw [waylandwsEglQueryString, eglplatformcommonEglQueryString, if_pos rfl, ← List.append_assoc,
      ← take_take_append]
    simp only [if_pos, snprintf, List.append_assoc]
    rfl
  have hboth : ∀ n, n ∈ names ' ' (commonNames ++ ' ' :: waylandNames) ↔
      n ∈ commonExtensions ∨ n ∈ waylandExtensions := by
    intro n
    rw [names_append_sep, names_commonNames, names_waylandNames, List.mem_append]
  constructor
  · rintro ⟨h, h'⟩
    rw [hcommon] at h
    rw [hwayland, hcommon] at h'
    refine ⟨fun n => ?_, fun n => ?_⟩
    · rw [h n, names_commonNames, extensions]
    · rw [h' n, h n, hboth, or_assoc, extensions]
  · rintro ⟨h, h'⟩
    refine ⟨fun n => ?_, fun n => ?_⟩
    · rw [hcommon, h n, names_commonNames, extensions]
    · rw [hwayland, hcommon, h' n, h n, hboth, names_commonNames, or_assoc]

section Uncut

variable {s : Text}

theorem names_eq_front_last (hlast : last ' ' s ≠ []) :
    names ' ' s = names ' ' (front ' ' s) ++ [last ' ' s] := by
  conv_lhs => rw [← front_append_last ' ' s]
  rw [names_front_append, names_of_notMem (notMem_last ' ' s) hlast]

theorem joined_notMem {w : Text} (hw : w ≠ []) : w ++ nativeBuffer2 ∉ commonExtensions := by
  have hacquire : ¬ nativeBuffer2 <:+ acquireNativeBuffer := by decide +kernel
  have hbind : ¬ nativeBuffer2 <:+ bindWaylandDisplay := by decide +kernel
  intro h
  simp only [commonExtensions, List.mem_cons, List.not_mem_nil, or_false] at h
  obtain h | h | h := h
  · exact hw (List.append_left_eq_self.mp h)
  · exact hacquire ⟨w, h⟩
  · exact hbind ⟨w, h⟩

theorem masked_iff (hlast : last ' ' s ≠ []) :
    (∀ n, n ∈ names ' ' (front ' ' s) ++
        (last ' ' s ++ nativeBuffer2) :: [acquireNativeBuffer, bindWaylandDisplay] ↔
      n ∈ names ' ' s ∨ n ∈ commonExtensions) ↔ Masked s := by
  have hjoined := joined_notMem hlast
  have hlonger : last ' ' s ≠ last ' ' s ++ nativeBuffer2 := by
    intro h
    exact absurd (List.append_right_eq_self.mp h.symm) (by decide +kernel)
  rw [names_eq_front_last hlast]
  simp only [commonExtensions, List.mem_append, List.mem_cons, List.not_mem_nil,
    or_false, not_or] at hjoined ⊢
  obtain ⟨hfirst, hacquire, hbind⟩ := hjoined
  constructor
  · intro h
    refine ⟨?_, ?_, ?_⟩
    · obtain hin | he | he := (h (last ' ' s)).mpr (.inl (.inr rfl))
      · exact .inl hin
      · exact absurd he hlonger
      · exact .inr he
    · obtain hin | he | he | he := (h nativeBuffer2).mpr (.inr (.inl rfl))
      · exact hin
      · exact absurd he.symm hfirst
      · exact absurd he (by decide +kernel)
      · exact absurd he (by decide +kernel)
    · obtain (hin | he) | he | he | he :=
        (h (last ' ' s ++ nativeBuffer2)).mp (.inr (.inl rfl))
      · exact hin
      · exact absurd he.symm hlonger
      · exact absurd he hfirst
      · exact absurd he hacquire
      · exact absurd he hbind
  · rintro ⟨hlost, hin, hmade⟩ n
    constructor
    · rintro (h | rfl | h)
      · exact .inl (.inl h)
      · exact .inl (.inl hmade)
      · exact .inr (.inr h)
    · rintro ((h | rfl) | rfl | h)
      · exact .inl h
      · exact hlost.imp_right .inr
      · exact .inl hin
      · exact .inr (.inr h)

theorem take_append_commonNames (hs : s.length ≤ 858) :
    (s ++ commonNames).take 1021 = s ++ commonNames := by
  apply List.take_of_length_le
  rw [List.length_append, length_commonNames]
  omega

theorem adds_common_iff (hs : s.length ≤ 858) :
    Adds ' ' 1021 s commonNames ↔ last ' ' s = [] ∨ Masked s := by
  rw [Adds, take_append_commonNames hs, names_append_commonNames, names_commonNames]
  by_cases hlast : last ' ' s = []
  · have hfront : front ' ' s = s := by
      have h := front_append_last ' ' s
      rwa [hlast, List.append_nil] at h
    refine iff_of_true (fun n => ?_) (.inl hlast)
    rw [hfront, hlast, List.nil_append, List.mem_append]
    rfl
  · rw [or_iff_right hlast]
    exact masked_iff hlast

theorem adds_wayland (hs : s.length ≤ 858) (h : Adds ' ' 1021 s commonNames) :
    Adds ' ' 1021 s (commonNames ++ ' ' :: waylandNames) := by
  have hboth : (s ++ (commonNames ++ ' ' :: waylandNames)).take 1021 =
      s ++ commonNames ++ ' ' :: waylandNames := by
    rw [← List.append_assoc]
    apply List.take_of_length_le
    rw [List.length_append, List.length_append, List.length_cons, length_commonNames,
      length_waylandNames]
    omega
  intro n
  have hn := h n
  rw [take_append_commonNames hs] at hn
  rw [hboth, names_append_sep, names_append_sep, List.mem_append, List.mem_append, hn, or_assoc]

end Uncut

/-- The names are extended precisely where the string of the driver is safe. -/
theorem extended_iff_safe (real : Real) :
    Extended real ↔ Safe ((real eglExtensions).getD []) := by
  rw [extended_iff_adds, Safe]
  by_cases hs : ((real eglExtensions).getD []).length ≤ 858
  · rw [if_pos hs, ← last_eq_nil_iff, ← adds_common_iff hs]
    exact and_iff_left_of_imp (adds_wayland hs)
  · rw [if_neg hs, adds_iff_spared, adds_iff_spared]

def unterminated : Real := fun _ => some "EGL_KHR_image".toList

/-- Its name and the first new one become one. -/
theorem not_extended_unterminated : ¬ Extended unterminated := by
  intro h
  have hfirst := (h.common nativeBuffer2).mpr (.inr List.mem_cons_self)
  exact absurd hfirst (by decide +kernel)

end FakeLibc.ExtensionStrings
