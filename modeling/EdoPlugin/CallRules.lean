import EdoPlugin.World

/-!
# Rules for the calls of the daemon

One rule of `wp` for each kind of call, and for the small combinators the handlers use.  A proof
about a handler applies them in the order of its instructions.
-/

namespace EdoPlugin

open Interaction

variable {policy : Policy} {G : World → DaemonOp → Prop} {α β : Type}
  {Q : Except PyErr α → World → Prop} {w : World}

theorem wp_callDb {op : DbOp} {f : op.Res → Daemon α} (hG : G w (.db op))
    (h : wp (daemonSem policy) G (f (op.exec w.db).1) Q { w with db := (op.exec w.db).2 }) :
    wp (daemonSem policy) G (callDb op >>= f) Q w := by
  refine ⟨hG, ?_⟩
  rintro res w' ⟨choice, -, hexec⟩
  cases hexec
  exact h

theorem wp_callDocker {op : DockerOp} {f : op.Res → Daemon α} (hG : G w (.docker op))
    (h : ∀ choice, policy (.docker op) choice → wp (daemonSem policy) G
      (f (op.exec w.docker choice).1) Q { w with docker := (op.exec w.docker choice).2 }) :
    wp (daemonSem policy) G (callDocker op >>= f) Q w := by
  refine ⟨hG, ?_⟩
  rintro res w' ⟨choice, hpolicy, hexec⟩
  cases hexec
  exact h choice hpolicy

theorem wp_callFilter {op : FilterOp} {f : op.Res → Daemon α} (hG : G w (.filter op))
    (h : ∀ choice, policy (.filter op) choice → wp (daemonSem policy) G
      (f (op.exec w.filter choice).1) Q { w with filter := (op.exec w.filter choice).2 }) :
    wp (daemonSem policy) G (callFilter op >>= f) Q w := by
  refine ⟨hG, ?_⟩
  rintro res w' ⟨choice, hpolicy, hexec⟩
  cases hexec
  exact h choice hpolicy

theorem wp_callWg {op : WgOp} {f : op.Res → Daemon α} (hG : G w (.wg op))
    (h : ∀ choice, policy (.wg op) choice → wp (daemonSem policy) G
      (f (op.exec w.wg choice).1) Q { w with wg := (op.exec w.wg choice).2 }) :
    wp (daemonSem policy) G (callWg op >>= f) Q w := by
  refine ⟨hG, ?_⟩
  rintro res w' ⟨choice, hpolicy, hexec⟩
  cases hexec
  exact h choice hpolicy

theorem wp_callHost {op : HostOp} {f : op.Res → Daemon α} (hG : G w (.host op))
    (h : ∀ res permits, wp (daemonSem policy) G (f res) Q { w with spawnPermits := permits }) :
    wp (daemonSem policy) G (callHost op >>= f) Q w := by
  refine ⟨hG, ?_⟩
  rintro res w' ⟨choice, -, hexec⟩
  obtain ⟨result, -, hresult⟩ := Option.map_eq_some_iff.mp hexec
  cases hresult
  exact h _ _

/-- The rule of a sequence, for the `do` notation. -/
theorem wp_seq {p : Daemon β} {f : β → Daemon α} {R : Except PyErr β → World → Prop}
    (hp : wp (daemonSem policy) G p R w)
    (hok : ∀ value w', R (.ok value) w' → wp (daemonSem policy) G (f value) Q w')
    (herror : ∀ err w', R (.error err) w' → Q (.error err) w') :
    wp (daemonSem policy) G (p >>= f) Q w := by
  refine wp_bind.mpr (wp_mono hp ?_)
  intro out w' hR
  cases out with
  | ok value => exact hok value w' hR
  | error err => exact herror err w' hR

theorem wp_ite {c : Prop} [Decidable c] {p q : Daemon α}
    (hp : wp (daemonSem policy) G p Q w) (hq : wp (daemonSem policy) G q Q w) :
    wp (daemonSem policy) G (if c then p else q) Q w := by
  split
  · exact hp
  · exact hq

theorem wp_ofExcept {result : Except PyErr α} (h : Q result w) :
    wp (daemonSem policy) G (Prog.ofExcept result) Q w := by
  cases result with
  | ok value => exact h
  | error err => exact h

/-! ## The same calls in one particular run -/

variable {out : Except PyErr α} {w' : World}

theorem ends_callDb {op : DbOp} {f : op.Res → Daemon α} (hpolicy : policy (.db op) ())
    (h : Ends (daemonSem policy) (f (op.exec w.db).1) { w with db := (op.exec w.db).2 } out w') :
    Ends (daemonSem policy) (callDb op >>= f) w out w' :=
  Ends.call ⟨(), hpolicy, rfl⟩ h

theorem ends_callDocker {op : DockerOp} {f : op.Res → Daemon α} (choice : op.Choice)
    (hpolicy : policy (.docker op) choice)
    (h : Ends (daemonSem policy) (f (op.exec w.docker choice).1)
      { w with docker := (op.exec w.docker choice).2 } out w') :
    Ends (daemonSem policy) (callDocker op >>= f) w out w' :=
  Ends.call ⟨choice, hpolicy, rfl⟩ h

theorem ends_callFilter {op : FilterOp} {f : op.Res → Daemon α} (choice : op.Choice)
    (hpolicy : policy (.filter op) choice)
    (h : Ends (daemonSem policy) (f (op.exec w.filter choice).1)
      { w with filter := (op.exec w.filter choice).2 } out w') :
    Ends (daemonSem policy) (callFilter op >>= f) w out w' :=
  Ends.call ⟨choice, hpolicy, rfl⟩ h

theorem Ends.of_callDb {op : DbOp} {f : op.Res → Daemon α}
    (h : Ends (daemonSem policy) (callDb op >>= f) w out w') :
    Ends (daemonSem policy) (f (op.exec w.db).1) { w with db := (op.exec w.db).2 } out w' := by
  obtain ⟨res, w₁, ⟨choice, -, hexec⟩, hends⟩ := Ends.of_perform h
  cases hexec
  exact hends

/-! ## Docker calls that only read -/

theorem wp_networksGet {name : String} {f : Except DockerErr Network → Daemon α}
    (hG : G w (.docker (.networksGet name)))
    (hsome : ∀ net, w.docker.findNetwork name = some net →
      wp (daemonSem policy) G (f (.ok net)) Q w)
    (hnone : ∀ msg, w.docker.findNetwork name = none →
      wp (daemonSem policy) G (f (.error (.notFound msg))) Q w)
    (hfault : ∀ msg, policy (.docker (.networksGet name)) (some msg) →
      wp (daemonSem policy) G (f (.error (.apiError msg))) Q w) :
    wp (daemonSem policy) G (callDocker (.networksGet name) >>= f) Q w := by
  refine wp_callDocker hG ?_
  intro choice hchoice
  cases choice with
  | some msg => exact hfault msg hchoice
  | none =>
    simp only [DockerOp.exec, failing, Docker.networksGet]
    cases hfind : w.docker.findNetwork name with
    | some net => exact hsome net hfind
    | none => exact hnone _ hfind

theorem wp_containersGet {ref : ContainerRef} {f : Except DockerErr Container → Daemon α}
    (hG : G w (.docker (.containersGet ref)))
    (hsome : ∀ c, w.docker.findContainer ref = some c →
      wp (daemonSem policy) G (f (.ok c)) Q w)
    (hnone : ∀ msg, w.docker.findContainer ref = none →
      wp (daemonSem policy) G (f (.error (.notFound msg))) Q w)
    (hfault : ∀ msg, policy (.docker (.containersGet ref)) (some msg) →
      wp (daemonSem policy) G (f (.error (.apiError msg))) Q w) :
    wp (daemonSem policy) G (callDocker (.containersGet ref) >>= f) Q w := by
  refine wp_callDocker hG ?_
  intro choice hchoice
  cases choice with
  | some msg => exact hfault msg hchoice
  | none =>
    simp only [DockerOp.exec, failing, Docker.containersGet]
    cases hfind : w.docker.findContainer ref with
    | some c => exact hsome c hfind
    | none => exact hnone _ hfind

end EdoPlugin
