import FakeLibc.BufferServer

namespace FakeLibc.GrallocFailures

open FakeLibc.Lib.Run FakeLibc.NativeHandles FakeLibc.BufferServer
open FakeLibc.RemoteBuffers (decRef)

/-- Nothing is half-built: the user data of a live `wl_buffer` resource is alive
and has its buffer, nothing was built from a handle that no allocator set, and
the native handle of a failed call was freed. -/
structure Whole (s : State) : Prop where
  userData : ∀ n, ∀ e ∈ s.buffers n, e.resource = true → e.wrapper = true ∧ e.buf ≠ .unset
  produced : ∀ n, ∀ e ∈ s.buffers n, e.source = .unset → e.buf = .unset ∧ n ∉ s.sent
  freed : ∀ n, ∀ e ∈ s.buffers n, e.failed = true → e.source = .created → e.freed = true

/-- If the call gets as far as `registerBuffer` or `alloc`, that does not fail. -/
def Succeeds (host : Host) (s : State) : Action → Prop
  | .create_buffer n width height ret =>
    ∀ handle ∈ s.handles n, ¬ (width.toInt < 1 ∨ height.toInt < 1) →
      (server_wlegl_handle_to_native host handle).join.isSome → ret = 0
  | .get_server_buffer_handle _ width height ret _ _ => ¬ (width = 0 ∨ height = 0) → ret = 0
  | .createRemoteBuffer _ ret => ret = 0
  | _ => True

instance (host : Host) (s : State) (a : Action) : Decidable (Succeeds host s a) := by
  cases a <;> simp only [Succeeds] <;> infer_instance

structure Good (e : Buffer) : Prop where
  failed : e.failed = false
  source : e.source ≠ .unset
  buf : e.buf ≠ .unset
  wrapper : e.resource = true → e.wrapper = true

def Inv (s : State) : Prop := ∀ n e, s.buffers n = some e → Good e

theorem Inv.whole {s : State} (hs : Inv s) : Whole s := by
  refine ⟨fun n e he hres => ?_, fun n e he hunset => ?_, fun n e he hfailed => ?_⟩
  · exact ⟨(hs n e he).wrapper hres, (hs n e he).buf⟩
  · exact absurd hunset (hs n e he).source
  · rw [(hs n e he).failed] at hfailed
    cases hfailed

theorem inv_start : Inv start := fun n e he => by simp [start] at he

section Parts

variable {s : State} {n : Nat} {e : Buffer}

theorem inv_setBuffer (hs : Inv s) (he : Good e) : Inv (s.setBuffer n e) := by
  intro m e' he'
  by_cases hmn : m = n
  · subst m
    simp only [State.setBuffer, Function.update_self, Option.some.injEq] at he'
    exact he' ▸ he
  · simp only [State.setBuffer, Function.update_of_ne hmn] at he'
    exact hs m e' he'

theorem inv_newBuffer (hs : Inv s) (he : Good e) : Inv (s.newBuffer e) :=
  inv_setBuffer (n := s.nextBuffer) hs he

theorem buffers_newBuffer (s : State) (e : Buffer) :
    (s.newBuffer e).buffers s.nextBuffer = some e := Function.update_self ..

theorem inv_unref (hs : Inv s) (n : Nat) : Inv (s.unref n) := by
  obtain h | ⟨e, b, he, hbuf, ⟨b', _, h⟩ | ⟨_, h⟩⟩ := unref_cases s n
  · exact h ▸ hs
  · have hgood := hs n e he
    rw [h]
    exact inv_setBuffer hs ⟨hgood.failed, hgood.source, by simp, hgood.wrapper⟩
  · have hgood := hs n e he
    rw [h]
    exact inv_setBuffer hs ⟨hgood.failed, hgood.source, by simp, hgood.wrapper⟩

theorem resource_unref {e' : Buffer} (he : s.buffers n = some e)
    (he' : (s.unref n).buffers n = some e') : e'.resource = e.resource := by
  obtain h | ⟨e₁, b, he₁, hbuf, ⟨b', _, h⟩ | ⟨_, h⟩⟩ := unref_cases s n
  · rw [h] at he'
    rw [Option.some.inj (he.symm.trans he')]
  · obtain rfl := Option.some.inj (he.symm.trans he₁)
    rw [h] at he'
    simp only [State.setBuffer, Function.update_self, Option.some.injEq] at he'
    rw [← he']
  · obtain rfl := Option.some.inj (he.symm.trans he₁)
    rw [h] at he'
    simp only [State.close, State.setBuffer, Function.update_self, Option.some.injEq] at he'
    rw [← he']

theorem inv_deleteWrapper (hs : Inv s)
    (hres : ∀ e, s.buffers n = some e → e.resource = false) : Inv (s.deleteWrapper n) := by
  unfold State.deleteWrapper
  cases he : s.buffers n with
  | none => exact hs
  | some e =>
    have hgood := hs n e he
    refine inv_setBuffer hs ⟨hgood.failed, hgood.source, hgood.buf, fun hlive => ?_⟩
    rw [hres e he] at hlive
    cases hlive

theorem inv_buffer_dtor (hs : Inv s) (he : s.buffers n = some e) (hlive : e.resource = true)
    (garbage : Option Nat) : Inv (server_wlegl_buffer_dtor s n e garbage) := by
  have hgood := hs n e he
  have hset : Inv (s.setBuffer n { e with resource := false }) :=
    inv_setBuffer hs ⟨hgood.failed, hgood.source, hgood.buf, fun h => by cases h⟩
  have htarget : e.target n garbage = some n := if_pos (hgood.wrapper hlive)
  rw [server_wlegl_buffer_dtor, htarget]
  refine inv_deleteWrapper (inv_unref hset n) (fun e' he' => ?_)
  exact resource_unref (Function.update_self ..) he'

theorem inv_acquire (hs : Inv s) (n : Nat) (e : Buffer) (garbage : Option Nat) :
    Inv (eglHybrisAcquireNativeBufferWL s n e garbage) := by
  obtain h | h | ⟨m, e', b, he, _, h⟩ := acquire_cases s n e garbage
  · exact h.symm ▸ hs
  · exact h.symm ▸ hs
  · have hgood := hs m e' he
    rw [h]
    exact inv_setBuffer hs ⟨hgood.failed, hgood.source, by simp, hgood.wrapper⟩

theorem inv_release (hs : Inv s) (he : s.buffers n = some e) :
    Inv (eglHybrisReleaseNativeBuffer s n e) := by
  have hgood := hs n e he
  have hset : Inv (s.setBuffer n { e with acquired := e.acquired - 1 }) :=
    inv_setBuffer hs ⟨hgood.failed, hgood.source, hgood.buf, hgood.wrapper⟩
  exact inv_unref hset n

theorem inv_destroy (garbage : Nat → Option Nat) (hs : Inv s) (r : Resource) :
    Inv (wl_resource_destroy garbage s r) :=
  destroy_preserves (P := Inv) (fun _ _ _ hs _ => hs)
    (fun _ n _ hs he hlive => inv_buffer_dtor hs he hlive (garbage n)) hs r

theorem inv_disconnect (garbage : Nat → Option Nat) (hs : Inv s) (order : List Resource) :
    Inv (order.foldl (wl_resource_destroy garbage) s) :=
  disconnect_preserves (P := Inv) (fun _ r hs => inv_destroy garbage hs r) hs order

end Parts

section Calls

variable {s : State} {n : Nat} {handle : server_wlegl_handle}

theorem inv_create_buffer {host : Host} {t : State} (hs : Inv s) (hn : s.handles n = some handle)
    {width height : CInt} {ret : Int}
    (hc : Succeeds host s (.create_buffer n width height ret))
    (h : server_wlegl_create_buffer host s n handle width height ret = some t) : Inv t := by
  obtain ⟨rfl, _⟩ | ⟨native, hgood, hnative, rfl⟩ := create_buffer_cases h
  · exact hs
  · have hret := hc handle hn hgood (by rw [hnative]; rfl)
    rw [server_wlegl_buffer_create, if_neg (not_not_intro hret)]
    have hset : Inv (s.setHandle n (some { handle with fds := [] })) := hs
    exact inv_newBuffer hset ⟨rfl, by simp, by simp, fun _ => rfl⟩

theorem not_whole_create_buffer {host : Host} {t : State} (hn : s.handles n = some handle)
    {width height : CInt} {ret : Int}
    (hc : ¬ Succeeds host s (.create_buffer n width height ret))
    (h : server_wlegl_create_buffer host s n handle width height ret = some t) : ¬ Whole t := by
  intro hw
  apply hc
  intro handle' hn' hgood hsome
  obtain rfl := Option.some.inj (hn.symm.trans hn')
  obtain ⟨_, hbad | hnone⟩ | ⟨native, _, _, rfl⟩ := create_buffer_cases h
  · exact absurd hbad hgood
  · rw [hnone] at hsome
    cases hsome
  · by_contra hret
    rw [server_wlegl_buffer_create, if_pos hret] at hw
    have hbroken := (hw.userData _ _ (buffers_newBuffer _ _) rfl).1
    cases hbroken

theorem inv_get_server_buffer_handle {host : Host} (hs : Inv s) (client : Nat)
    {width height : CInt} {ret : Int} {native : Native} {readable : Bool}
    (hc : Succeeds host s (.get_server_buffer_handle client width height ret native readable)) :
    Inv (server_wlegl_get_server_buffer_handle s client width height ret native readable) := by
  unfold server_wlegl_get_server_buffer_handle
  split
  · exact hs
  next hsize =>
    have hret : ret = 0 := hc hsize
    subst ret
    exact inv_newBuffer hs ⟨rfl, by simp, by simp, fun _ => rfl⟩

theorem not_whole_get_server_buffer_handle {host : Host} {client : Nat} {width height : CInt}
    {ret : Int} {native : Native} {readable : Bool}
    (hc : ¬ Succeeds host s (.get_server_buffer_handle client width height ret native readable)) :
    ¬ Whole (server_wlegl_get_server_buffer_handle s client width height ret native readable) := by
  simp only [Succeeds, not_forall] at hc
  obtain ⟨hsize, hret⟩ := hc
  intro hw
  rw [server_wlegl_get_server_buffer_handle, if_neg hsize, if_neg hret] at hw
  have hbuilt : Buf.live RemoteBuffers.Constructor.createServer.build = .unset := by
    dsimp only at hw
    split at hw
    · exact (hw.produced s.nextBuffer _ (buffers_newBuffer _ _) rfl).1
    · exact (hw.produced s.nextBuffer _ (buffers_newBuffer _ _) rfl).1
  cases hbuilt

theorem inv_createRemoteBuffer (hs : Inv s) (native : Native) :
    Inv (eglHybrisCreateRemoteBuffer s native 0) :=
  inv_newBuffer hs ⟨rfl, by simp, by simp, fun h => by cases h⟩

theorem not_whole_createRemoteBuffer {ret : Int} (native : Native) (hret : ¬ ret = 0) :
    ¬ Whole (eglHybrisCreateRemoteBuffer s native ret) := by
  intro hw
  rw [eglHybrisCreateRemoteBuffer, if_neg hret] at hw
  have hfreed := hw.freed _ _ (buffers_newBuffer _ _) rfl rfl
  cases hfreed

end Calls

theorem inv_step {host : Host} {s t : State} {a : Action} (hs : Inv s) (hc : Succeeds host s a)
    (h : step host s a = some t) : Inv t := by
  obtain ⟨_, h⟩ := Option.ite_none_left_eq_some.mp h
  cases a with
  | create_handle client num_fds ints =>
    obtain rfl := Option.some.inj h
    unfold server_wlegl_create_handle
    split <;> exact hs
  | add_fd n fd =>
    obtain ⟨handle, _, rfl⟩ := Option.map_eq_some_iff.mp h
    unfold add_fd
    split <;> exact hs
  | create_buffer n width height ret =>
    obtain ⟨handle, hn, h⟩ := Option.bind_eq_some_iff.mp h
    exact inv_create_buffer hs hn hc h
  | get_server_buffer_handle client width height ret native readable =>
    exact Option.some.inj h ▸ inv_get_server_buffer_handle hs client hc
  | destroy r garbage => exact Option.some.inj h ▸ inv_destroy garbage hs r
  | disconnect client order garbage =>
    obtain ⟨_, h⟩ := Option.ite_none_right_eq_some.mp h
    exact Option.some.inj h ▸ inv_disconnect garbage hs order
  | acquire n garbage =>
    obtain ⟨e, _, h⟩ := Option.bind_eq_some_iff.mp h
    obtain ⟨_, h⟩ := Option.ite_none_right_eq_some.mp h
    exact Option.some.inj h ▸ inv_acquire hs n e garbage
  | release n =>
    obtain ⟨e, he, h⟩ := Option.bind_eq_some_iff.mp h
    obtain ⟨_, h⟩ := Option.ite_none_right_eq_some.mp h
    exact Option.some.inj h ▸ inv_release hs he
  | createRemoteBuffer native ret =>
    obtain rfl : ret = 0 := hc
    have hreceived : Inv (s.receive native.fds) := hs
    exact Option.some.inj h ▸ inv_createRemoteBuffer hreceived native

theorem not_whole_step {host : Host} {s t : State} {a : Action} (hc : ¬ Succeeds host s a)
    (h : step host s a = some t) : ¬ Whole t := by
  obtain ⟨_, h⟩ := Option.ite_none_left_eq_some.mp h
  cases a with
  | create_buffer n width height ret =>
    obtain ⟨handle, hn, h⟩ := Option.bind_eq_some_iff.mp h
    exact not_whole_create_buffer hn hc h
  | get_server_buffer_handle client width height ret native readable =>
    exact Option.some.inj h ▸ not_whole_get_server_buffer_handle hc
  | createRemoteBuffer native ret =>
    exact Option.some.inj h ▸ not_whole_createRemoteBuffer native hc
  | _ => exact absurd trivial hc

/-- Nothing is left half-built precisely when no `registerBuffer` and no `alloc`
fails. -/
theorem whole_iff_succeeds (host : Host) (actions : List Action)
    (hrun : (exec (step host) start actions).isSome) :
    Always (step host) Whole start actions ↔ Guarded (step host) (Succeeds host) start actions :=
  always_iff_guarded (fun _ hs => hs.whole) (fun _ _ _ hs hc h => inv_step hs hc h)
    (fun _ _ _ _ hc h => not_whole_step hc h) inv_start hrun

theorem whole_iff_succeeds_twoBuffers :
    Always (step host64) Whole start
      [.create_handle 0 1 [], .add_fd 0 7, .create_buffer 0 64 64 0,
        .get_server_buffer_handle 0 64 64 0 ⟨[9], []⟩ true, .acquire 1 none,
        .disconnect 0 [.handle 0, .buffer 0, .buffer 1] (fun _ => none), .release 1] :=
  (whole_iff_succeeds host64 _ (by decide)).mpr (by decide)

/-- Each of the three calls, where the driver fails. -/
theorem not_whole_failures :
    (¬ Always (step host64) Whole start
      [.create_handle 0 0 [], .create_buffer 0 64 64 (-22)]) ∧
    (¬ Always (step host64) Whole start
      [.get_server_buffer_handle 0 64 64 (-12) ⟨[], []⟩ true]) ∧
    ¬ Always (step host64) Whole start [.createRemoteBuffer ⟨[7], []⟩ (-22)] := by
  refine ⟨fun h => ?_, fun h => ?_, fun h => ?_⟩
  · have hlast := (h _ _ List.prefix_rfl rfl).userData 0 _ rfl rfl
    exact absurd hlast.1 (by decide)
  · have hlast := (h _ _ List.prefix_rfl rfl).produced 0 _ rfl rfl
    exact absurd hlast.1 (by decide)
  · have hlast := (h _ _ List.prefix_rfl rfl).freed 0 _ rfl rfl rfl
    exact absurd hlast (by decide)

end FakeLibc.GrallocFailures
