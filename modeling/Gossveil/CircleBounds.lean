import Gossveil.Circle

namespace Gossveil.Circle

/-!
# Group chains over whole runs

A run starts from the empty circle and makes any calls of the group
operations.  The chain ids of the members stay distinct, so a chain id and a
signing key name at most one member, and every call keeps or advances the
step at which that member stands.  The only call that reaches illegal
behaviour is one that advances a chain past the last 32-bit step.
-/

/-! ## Walking a chain -/

section Chain

variable [Hashes]

/-- A walk that stays in range passes one link for each step. -/
theorem Link.walk_eq_ok
    {distance : Nat}
    {link : Link}
    (inRange : link.step + distance < 2 ^ 32) :
    ∃ passed reached,
      link.walk distance = .ok (passed, reached) ∧
        passed.map Link.step = List.range' link.step distance ∧
        reached.step = link.step + distance := by
  induction distance generalizing link with
  | zero =>
      exact ⟨[], link, rfl, rfl, rfl⟩
  | succ distance inductionHypothesis =>
      have advanced :
          link.advance =
            .ok ⟨link.step + 1, Derive.chainNext link.seed⟩ := by
        simp only [Link.advance]
        rw [Outcome.add_of_lt (by omega)]
        rfl
      rcases @inductionHypothesis
          ⟨link.step + 1, Derive.chainNext link.seed⟩
          (by simp only; omega) with
        ⟨passed, reached, walked, steps, last⟩
      refine ⟨link :: passed, reached, ?_, ?_, ?_⟩
      · rw [Link.walk, advanced, Outcome.ok_bind, walked]
        rfl
      · rw [List.map_cons, steps, List.range'_succ]
      · rw [last]
        simp only
        omega

/-- Advancing overflows exactly at the last step. -/
theorem Link.advance_eq_trap {link : Link} :
    link.advance = .trap ↔ 2 ^ 32 ≤ link.step + 1 := by
  simp [Link.advance, Outcome.bind_eq_trap]

/-- A chain advances short of its last step. -/
theorem Link.advance_eq_ok {link next : Link} :
    link.advance = .ok next ↔
      link.step + 1 < 2 ^ 32 ∧
        next = ⟨link.step + 1, Derive.chainNext link.seed⟩ := by
  simp only [Link.advance, Outcome.bind_eq_ok, Outcome.add_eq_ok,
    Outcome.pure_eq, Outcome.ok.injEq]
  constructor
  · rintro ⟨_, ⟨inRange, rfl⟩, rfl⟩
    exact ⟨inRange, rfl⟩
  · rintro ⟨inRange, rfl⟩
    exact ⟨_, ⟨inRange, rfl⟩, rfl⟩

/-- Keeping skipped keys changes nothing but the skipped keys. -/
theorem foldl_keepSkipped
    (passed : List Link)
    (member : Member) :
    ∃ skipped,
      passed.foldl (·.keepSkipped ·.yield) member =
        { member with skipped := skipped } := by
  induction passed generalizing member with
  | nil =>
      exact ⟨member.skipped, rfl⟩
  | cons link rest inductionHypothesis =>
      rcases inductionHypothesis (member.keepSkipped link.yield) with
        ⟨skipped, kept⟩
      refine ⟨skipped, ?_⟩
      rw [List.foldl_cons, kept]
      simp only [Member.keepSkipped]

end Chain

/-! ## The members of a circle -/

/-- What every circle of a run satisfies. -/
structure Sound (circle : Circle) : Prop where
  chains : circle.members.Pairwise fun first second =>
    first.chainId ≠ second.chainId
  version : ∀ member ∈ circle.members, member.version = Post.version
  chainFits : ∀ member ∈ circle.members, member.chainId < 2 ^ 32
  stepFits : ∀ member ∈ circle.members, member.link.step < 2 ^ 32

/-- A circle without chains is sound. -/
theorem init_sound : init.Sound :=
  ⟨List.Pairwise.nil, by simp [init], by simp [init], by simp [init]⟩

/-- The same chain under the same signing key. -/
def Member.SameChain (first second : Member) : Prop :=
  first.chainId = second.chainId ∧ first.signing = second.signing

namespace Sound

variable {circle : Circle}

/-- A chain id names at most one member. -/
theorem unique
    (sound : circle.Sound)
    {first second : Member}
    (firstMember : first ∈ circle.members)
    (secondMember : second ∈ circle.members)
    (same : first.chainId = second.chainId) :
    first = second := by
  have distinct := sound.chains
  revert firstMember secondMember
  generalize circle.members = members at distinct
  intro firstMember secondMember
  induction distinct with
  | nil =>
      cases firstMember
  | cons others _ inductionHypothesis =>
      rcases List.mem_cons.mp firstMember with rfl | firstRest
      · rcases List.mem_cons.mp secondMember with rfl | secondRest
        · rfl
        · exact absurd same (others second secondRest)
      · rcases List.mem_cons.mp secondMember with rfl | secondRest
        · exact absurd same.symm (others first firstRest)
        · exact inductionHypothesis firstRest secondRest

end Sound

/-- Storing a member replaces the one of its chain. -/
theorem replaceF_spec
    {members : List Member}
    (distinct : members.Pairwise fun first second =>
      first.chainId ≠ second.chainId)
    {old changed : Member}
    (present : old ∈ members)
    (sameChain : changed.chainId = old.chainId) :
    let replaced := members.replaceF fun candidate =>
      if candidate.chainId = changed.chainId then some changed else none
    replaced.map Member.chainId = members.map Member.chainId ∧
      ∀ member ∈ replaced,
        member = changed ∨
          (member ∈ members ∧ member.chainId ≠ changed.chainId) := by
  induction distinct with
  | nil =>
      cases present
  | @cons head tail others _ inductionHypothesis =>
      by_cases here : head.chainId = changed.chainId
      · have shape :
            (head :: tail).replaceF
                (fun candidate =>
                  if candidate.chainId = changed.chainId then
                    some changed
                  else
                    none) =
              changed :: tail :=
          List.replaceF_cons_of_some _ (if_pos here)
        refine ⟨?_, ?_⟩
        · rw [shape, List.map_cons, List.map_cons, here]
        · intro member inside
          rw [shape] at inside
          rcases List.mem_cons.mp inside with rfl | inTail
          · exact Or.inl rfl
          · refine Or.inr ⟨List.mem_cons_of_mem _ inTail, ?_⟩
            rw [← here]
            exact fun same => others member inTail same.symm
      · have inTail : old ∈ tail := by
          rcases List.mem_cons.mp present with rfl | inTail
          · exact absurd sameChain.symm here
          · exact inTail
        have shape :
            (head :: tail).replaceF
                (fun candidate =>
                  if candidate.chainId = changed.chainId then
                    some changed
                  else
                    none) =
              head :: tail.replaceF fun candidate =>
                if candidate.chainId = changed.chainId then
                  some changed
                else
                  none :=
          List.replaceF_cons_of_none _ (if_neg here)
        rcases inductionHypothesis inTail with ⟨ids, members⟩
        refine ⟨?_, ?_⟩
        · rw [shape, List.map_cons, List.map_cons, ids]
        · intro member inside
          rw [shape] at inside
          rcases List.mem_cons.mp inside with rfl | inReplaced
          · exact Or.inr ⟨List.mem_cons_self, here⟩
          · rcases members member inReplaced with same | ⟨inside, other⟩
            · exact Or.inl same
            · exact Or.inr ⟨List.mem_cons_of_mem _ inside, other⟩

/-- `sift` finds the member to keep and drops its whole chain. -/
theorem sift_eq
    (chainId : Nat)
    (signing : Curve.Public)
    (kept : Option Member)
    (members : List Member) :
    sift chainId signing kept members =
      (kept <|> members.find? fun member =>
          member.chainId = chainId ∧ member.signing = signing,
        members.filter fun member => member.chainId ≠ chainId) := by
  induction members generalizing kept with
  | nil =>
      cases kept <;> rfl
  | cons member rest inductionHypothesis =>
      rw [sift]
      by_cases here : member.chainId = chainId
      · by_cases matching : member.signing = signing
        · cases kept with
          | none => simp [here, matching, inductionHypothesis]
          | some found => simp [here, inductionHypothesis]
        · simp [here, matching, inductionHypothesis]
      · simp [here, inductionHypothesis]

/--
What a change of the circle may do: chains keep or advance their step, and
the circle stays sound.
-/
structure Kept (before after : Circle) : Prop where
  sound : after.Sound
  forward :
    ∀ old ∈ before.members,
      ∀ changed ∈ after.members,
        old.SameChain changed → old.link.step ≤ changed.link.step

theorem Kept.refl
    {circle : Circle}
    (sound : circle.Sound) :
    circle.Kept circle :=
  ⟨sound, fun old oldMember changed changedMember same => by
    rw [sound.unique oldMember changedMember same.1]⟩

/-- Storing an advanced member keeps the circle sound. -/
theorem store_kept
    {circle : Circle}
    (sound : circle.Sound)
    {old changed : Member}
    (present : old ∈ circle.members)
    (same : changed.chainId = old.chainId)
    (version : changed.version = old.version)
    (advanced : old.link.step ≤ changed.link.step)
    (inRange : changed.link.step < 2 ^ 32) :
    circle.Kept (circle.store changed) := by
  rcases replaceF_spec sound.chains present same with ⟨ids, members⟩
  have distinct :
      (circle.store changed).members.Pairwise fun first second =>
        first.chainId ≠ second.chainId := by
    have before := List.pairwise_map.mpr sound.chains
    rw [← ids] at before
    exact List.pairwise_map.mp before
  refine ⟨⟨distinct, ?_, ?_, ?_⟩, ?_⟩
  · intro member inside
    rcases members member inside with rfl | ⟨inside, _⟩
    · rw [version]
      exact sound.version old present
    · exact sound.version member inside
  · intro member inside
    rcases members member inside with rfl | ⟨inside, _⟩
    · rw [same]
      exact sound.chainFits old present
    · exact sound.chainFits member inside
  · intro member inside
    rcases members member inside with rfl | ⟨inside, _⟩
    · exact inRange
    · exact sound.stepFits member inside
  · intro first firstMember second secondMember sameChain
    rcases members second secondMember with rfl | ⟨inside, _⟩
    · have isOld : first = old :=
        sound.unique firstMember present (sameChain.1.trans same)
      rw [isOld]
      exact advanced
    · rw [sound.unique firstMember inside sameChain.1]

/-- A stored member is the only one of its chain. -/
theorem store_member
    {circle : Circle}
    (sound : circle.Sound)
    {old changed member : Member}
    (present : old ∈ circle.members)
    (same : changed.chainId = old.chainId)
    (inside : member ∈ (circle.store changed).members)
    (chain : member.chainId = changed.chainId) :
    member = changed := by
  rcases replaceF_spec sound.chains present same with ⟨_, members⟩
  rcases members member inside with isChanged | ⟨_, other⟩
  · exact isChanged
  · exact absurd chain other

/-- Admitting a member keeps the circle sound. -/
theorem admitMember_kept
    {circle : Circle}
    (sound : circle.Sound)
    {fresh : Member}
    (version : fresh.version = Post.version)
    (chainFits : fresh.chainId < 2 ^ 32)
    (stepFits : fresh.link.step < 2 ^ 32) :
    circle.Kept (circle.admitMember fresh) := by
  have shape :
      (circle.admitMember fresh).members =
        ((circle.members.find? fun member =>
            member.chainId = fresh.chainId ∧
              member.signing = fresh.signing).getD fresh) ::
          (circle.members.filter fun member =>
            member.chainId ≠ fresh.chainId).take (maxMembers - 1) := by
    simp [admitMember, sift_eq]
  -- The head is the member kept aside, or else the fresh one.
  have headSpec :
      ∀ member,
        (circle.members.find? fun member =>
            member.chainId = fresh.chainId ∧
              member.signing = fresh.signing).getD fresh = member →
          member.chainId = fresh.chainId ∧
            (member ∈ circle.members ∨
              (member = fresh ∧
                ∀ old ∈ circle.members, ¬ old.SameChain fresh)) := by
    intro member found
    cases search : circle.members.find? fun member =>
        member.chainId = fresh.chainId ∧
          member.signing = fresh.signing with
    | none =>
        rw [search] at found
        refine ⟨by rw [← found]; rfl, Or.inr ⟨found.symm, ?_⟩⟩
        intro old oldMember same
        have missing := List.find?_eq_none.mp search old oldMember
        simp only [decide_eq_true_eq, not_and] at missing
        exact missing same.1 same.2
    | some kept =>
        rw [search] at found
        have inside := List.mem_of_find?_eq_some search
        have matching := List.find?_some search
        simp only [decide_eq_true_eq] at matching
        have isKept : kept = member := found
        subst isKept
        exact ⟨matching.1, Or.inl inside⟩
  have tailSpec :
      ∀ member ∈
          (circle.members.filter fun member =>
            member.chainId ≠ fresh.chainId).take (maxMembers - 1),
        member ∈ circle.members ∧ member.chainId ≠ fresh.chainId := by
    intro member inside
    have filtered := List.mem_filter.mp (List.mem_of_mem_take inside)
    exact ⟨filtered.1, by simpa using filtered.2⟩
  have members :
      ∀ member ∈ (circle.admitMember fresh).members,
        member ∈ circle.members ∨
          (member = fresh ∧
            ∀ old ∈ circle.members, ¬ old.SameChain fresh) := by
    intro member inside
    rw [shape] at inside
    rcases List.mem_cons.mp inside with isHead | inTail
    · exact (headSpec member isHead.symm).2
    · exact Or.inl (tailSpec member inTail).1
  refine ⟨⟨?_, ?_, ?_, ?_⟩, ?_⟩
  · rw [shape]
    refine List.Pairwise.cons ?_ ?_
    · intro member inTail
      rw [(headSpec _ rfl).1]
      exact fun same => (tailSpec member inTail).2 same.symm
    · exact (sound.chains.filter _).take
  · intro member inside
    rcases members member inside with old | ⟨rfl, _⟩
    · exact sound.version member old
    · exact version
  · intro member inside
    rcases members member inside with old | ⟨rfl, _⟩
    · exact sound.chainFits member old
    · exact chainFits
  · intro member inside
    rcases members member inside with old | ⟨rfl, _⟩
    · exact sound.stepFits member old
    · exact stepFits
  · intro old oldMember changed changedMember same
    rcases members changed changedMember with inside | ⟨rfl, noneSuch⟩
    · rw [sound.unique oldMember inside same.1]
    · exact absurd same (noneSuch old oldMember)

/-! ## The calls of a run -/

/-- The group operations with what they take and draw. -/
inductive Call where
  | announce (circleId : Block 16) (draw : Draw)
  | admitAnnounce (announcement : Announce)
  | seal (circleId : Block 16) (plain : Bytes) (nonce : Block 64)
  | «open» (note : Note)

/--
Announcements and notes are parsed ones, and a plaintext leaves room for its
padding in the address space.
-/
def Call.Legal : Call → Prop
  | .announce _ _ => True
  | .admitAnnounce announcement =>
      ∃ data, Announce.parse data = .ok announcement
  | .seal _ plain _ => plain.length + 16 < 2 ^ 64
  | .open note => ∃ data, Note.parse data = .ok note

section Runs

variable [Hashes] [Curves] [Aes]

/-- One call: the circle after it and how it ended. -/
def perform (circle : Circle) : Call → Circle × Outcome Fault Unit
  | .announce circleId draw =>
      let (circle, result) := circle.announce circleId draw
      (circle, (fun _ => ()) <$> result)
  | .admitAnnounce announcement =>
      (circle.admitAnnounce announcement, .ok ())
  | .seal circleId plain nonce =>
      let (circle, result) := circle.seal circleId plain nonce
      (circle, (fun _ => ()) <$> result)
  | .open note =>
      let (circle, result) := circle.open note
      (circle, (fun _ => ()) <$> result)

/-- The circle that some calls, made from the empty one, lead to. -/
def reached (calls : List Call) : Circle :=
  calls.foldl (fun circle call => (circle.perform call).1) init

/-- A message key drawn from a chain position. -/
structure Drawn where
  chainId : Nat
  signing : Curve.Public
  yielded : Yield

/-- What one note of a chain is sealed or opened with. -/
def Drawn.of (member : Member) (link : Link) : Drawn :=
  ⟨member.chainId, member.signing, link.yield⟩

/-- `sealFor` signs the note it was asked for. -/
def Signs
    (member : Member)
    (circleId : Block 16)
    (plain : Bytes)
    (nonce : Block 64) :
    Prop :=
  ∃ signer signature,
    member.signingSecret = some signer ∧
      signer.signWithNonce
          (Note.signed member.version circleId member.chainId
            member.link.step
            (Cipher.cbcSeal member.link.yield.keys.cipher
              member.link.yield.keys.iv plain))
          nonce =
        .ok signature

/-- `open` draws the key of a note from the chain of a member. -/
structure Reaches (member : Member) (note : Note) : Prop where
  version : note.version = member.version
  signed : note.signedBy member.signing = true
  ahead : member.link.step ≤ note.step
  near : note.step - member.link.step ≤ maxForwardJump

instance (member : Member) (note : Note) :
    Decidable (Reaches member note) :=
  decidable_of_iff
    (note.version = member.version ∧
      note.signedBy member.signing = true ∧
      member.link.step ≤ note.step ∧
      note.step - member.link.step ≤ maxForwardJump)
    ⟨fun ⟨version, signed, ahead, near⟩ => ⟨version, signed, ahead, near⟩,
      fun ⟨version, signed, ahead, near⟩ => ⟨version, signed, ahead, near⟩⟩

/--
The keys a call draws from the chain positions it moves over: the one `seal`
uses, and those `open` keeps on its way with the one it returns.
-/
def drawn (circle : Circle) : Call → List Drawn
  | .announce _ _ => []
  | .admitAnnounce _ => []
  | .seal circleId plain nonce =>
      match circle.newest with
      | none => []
      | some member =>
          match sealFor member circleId plain nonce with
          | .ok _ => [Drawn.of member member.link]
          | _ => []
  | .open note =>
      match circle.byChain note.chainId with
      | none => []
      | some member =>
          if Reaches member note then
            match member.link.walk (note.step - member.link.step) with
            | .ok (passed, last) => (passed ++ [last]).map (Drawn.of member)
            | _ => []
          else
            []

/--
A call has room when the chain position it draws from is not the last one:
no seal signs at step `2^32 - 1`, and no note with that step is opened from
the chain.
-/
def HasRoom (circle : Circle) : Call → Prop
  | .announce _ _ => True
  | .admitAnnounce _ => True
  | .seal circleId plain nonce =>
      ∀ member, circle.newest = some member →
        Signs member circleId plain nonce →
        member.link.step ≠ 2 ^ 32 - 1
  | .open note =>
      ∀ member, circle.byChain note.chainId = some member →
        Reaches member note →
        note.step ≠ 2 ^ 32 - 1

/-! ## What one call does -/

omit [Hashes] [Aes] in
/-- An announcement never traps and keeps what there was. -/
theorem announce_spec
    {circle : Circle}
    (sound : circle.Sound)
    (circleId : Block 16)
    (draw : Draw) :
    (circle.announce circleId draw).2 ≠ .trap ∧
      circle.Kept (circle.announce circleId draw).1 := by
  -- The announcement of any newest member is made without a trap.
  have made :
      ∀ {current : Circle} {member : Member},
        current.Sound →
        current.newest = some member →
        (do
          let member ← Outcome.unwrap current.newest
          let version ← Outcome.intCast 8 member.version
          Announce.make version circleId member.chainId
            member.link.step member.link.seed member.signing) ≠
          .trap := by
    intro current member currentSound newest
    have inside : member ∈ current.members :=
      List.mem_of_mem_head? newest
    have version := currentSound.version member inside
    rw [newest, Outcome.unwrap_some, Outcome.ok_bind, version,
      Outcome.intCast_of_lt (by decide), Outcome.ok_bind,
      Announce.make_eq_ok _ _ _ (currentSound.chainFits member inside)
        (currentSound.stepFits member inside)]
    simp
  unfold announce withChain
  cases newest : circle.newest with
  | some member =>
      exact ⟨made sound newest, Kept.refl sound⟩
  | none =>
      cases signing : Curve.Pair.fromSeed draw.signing with
      | error fault =>
          exact ⟨by simp, Kept.refl sound⟩
      | trap =>
          exact absurd signing (Curve.Pair.fromSeed_ne_trap _)
      | ok pair =>
          have chainFits :
              Codec.Reader.littleEndian draw.chainId.bytes < 2 ^ 32 := by
            have bound :=
              Codec.Reader.littleEndian_lt draw.chainId.bytes
            rw [draw.chainId.length_bytes] at bound
            exact bound
          have kept :=
            @admitMember_kept circle sound
              { version := currentVersion
                chainId :=
                  Codec.Reader.littleEndian draw.chainId.bytes
                link := ⟨0, draw.seed⟩
                signing := pair.publicKey
                signingSecret := some pair.secret
                skipped := [] }
              rfl chainFits (Nat.two_pow_pos 32)
          exact ⟨made kept.sound rfl, kept⟩

omit [Hashes] [Curves] [Aes] in
/-- Admitting a chain keeps what there was. -/
theorem admit_kept
    {circle : Circle}
    (sound : circle.Sound)
    {announcement : Announce}
    (parsed : announcement.Parsed) :
    circle.Kept (circle.admitAnnounce announcement) :=
  admitMember_kept sound parsed.version parsed.chainFits parsed.stepFits

/-- A seal that signs ends with the advance of the chain. -/
theorem sealFor_of_signs
    {member : Member}
    {circleId : Block 16}
    {plain : Bytes}
    {nonce : Block 64}
    (version : member.version = Post.version)
    (chainFits : member.chainId < 2 ^ 32)
    (stepFits : member.link.step < 2 ^ 32)
    (room : plain.length + 16 < 2 ^ 64)
    (signs : Signs member circleId plain nonce) :
    ∃ bytes,
      sealFor member circleId plain nonce =
        (fun link => (bytes, { member with link := link })) <$>
          member.link.advance := by
  rcases signs with ⟨signer, signature, secret, signed⟩
  rw [version] at signed
  have bodyFits :
      (Cipher.cbcSeal member.link.yield.keys.cipher
        member.link.yield.keys.iv plain).length < 2 ^ 64 := by
    rw [Cipher.length_cbcSeal]
    omega
  rcases Note.parse_signed circleId signature chainFits stepFits
      bodyFits with
    ⟨longEnough, parsed⟩
  refine ⟨Note.signed Post.version circleId member.chainId
      member.link.step
      (Cipher.cbcSeal member.link.yield.keys.cipher
        member.link.yield.keys.iv plain) ++ signature.bytes, ?_⟩
  simp only [sealFor, secret, Outcome.ofOption_some, Outcome.ok_bind,
    version, Outcome.intCast_of_lt (show Post.version < 2 ^ 8 by decide),
    Note.make]
  rw [show member.link.yield.step = member.link.step from rfl, signed,
    Outcome.ok_bind, parsed, Outcome.ok_bind]
  rfl

/-- A seal that does not sign fails before it touches the chain. -/
theorem sealFor_of_not_signs
    {member : Member}
    {circleId : Block 16}
    {plain : Bytes}
    {nonce : Block 64}
    (version : member.version = Post.version)
    (silent : ¬ Signs member circleId plain nonce) :
    ∃ fault, sealFor member circleId plain nonce = .error fault := by
  cases secret : member.signingSecret with
  | none =>
      exact ⟨.badSession, by simp [sealFor, secret]⟩
  | some signer =>
      cases signed :
          signer.signWithNonce
            (Note.signed member.version circleId member.chainId
              member.link.step
              (Cipher.cbcSeal member.link.yield.keys.cipher
                member.link.yield.keys.iv plain))
            nonce with
      | ok signature =>
          exact absurd ⟨signer, signature, secret, signed⟩ silent
      | trap =>
          exact absurd signed (Outcome.ofOption_ne_trap _ _)
      | error fault =>
          rw [version] at signed
          refine ⟨fault, ?_⟩
          simp only [sealFor, secret, Outcome.ofOption_some,
            Outcome.ok_bind, version,
            Outcome.intCast_of_lt (show Post.version < 2 ^ 8 by decide),
            Note.make]
          rw [show member.link.yield.step = member.link.step from rfl,
            signed]
          rfl

omit [Curves] [Aes] in
/-- A step behind the chain is served from the kept keys. -/
theorem yieldFor_behind
    {member : Member}
    {step : Nat}
    (behind : step < member.link.step) :
    yieldFor member step = .error .replay ∨
      ∃ yielded skipped,
        yieldFor member step =
          .ok (yielded, { member with skipped := skipped }) := by
  simp only [yieldFor, if_pos behind, Member.takeSkipped]
  cases List.find? (fun x => decide (x.step = step)) member.skipped with
  | none => exact Or.inl rfl
  | some yielded => exact Or.inr ⟨yielded, _, rfl⟩

omit [Curves] [Aes] in
/-- A near step ahead of the chain walks to it and advances once more. -/
theorem yieldFor_ahead
    {member : Member}
    {step : Nat}
    (ahead : member.link.step ≤ step)
    (near : step - member.link.step ≤ maxForwardJump)
    (fits : step < 2 ^ 32) :
    ∃ passed last skipped,
      member.link.walk (step - member.link.step) = .ok (passed, last) ∧
        (passed ++ [last]).map Link.step =
          List.range' member.link.step (step - member.link.step + 1) ∧
        last.step = step ∧
        yieldFor member step =
          (fun link =>
              (last.yield,
                { member with link := link, skipped := skipped })) <$>
            last.advance := by
  rcases @Link.walk_eq_ok _ (step - member.link.step) member.link
      (by omega) with
    ⟨passed, last, walked, steps, lastStep⟩
  rcases foldl_keepSkipped passed member with ⟨skipped, kept⟩
  have reachesStep : last.step = step := by
    rw [lastStep]
    omega
  refine ⟨passed, last, skipped, walked, ?_, reachesStep, ?_⟩
  · rw [List.map_append, steps, List.range'_concat]
    simp only [List.map_cons, List.map_nil, reachesStep, Nat.one_mul]
    congr 2
    omega
  · rw [yieldFor, if_neg (Nat.not_lt.mpr ahead),
      if_neg (Nat.not_lt.mpr near), walked]
    simp only [Outcome.ok_bind, kept]
    rfl

/-- What one call does to a sound circle. -/
structure Performed (circle : Circle) (call : Call) : Prop where
  trap : (circle.perform call).2 = .trap ↔ ¬ circle.HasRoom call
  kept : circle.Kept (circle.perform call).1
  drawnFrom :
    ∀ drawn ∈ circle.drawn call,
      ∃ member ∈ circle.members,
        member.chainId = drawn.chainId ∧
          member.signing = drawn.signing ∧
          member.link.step ≤ drawn.yielded.step
  drawnBelow :
    circle.HasRoom call →
      ∀ drawn ∈ circle.drawn call,
        ∀ member ∈ (circle.perform call).1.members,
          member.chainId = drawn.chainId →
            drawn.yielded.step < member.link.step
  drawnOrder :
    (circle.drawn call).Pairwise fun first second =>
      first.yielded.step < second.yielded.step

/-- A call that fails before it reaches a chain. -/
theorem Performed.of_error
    {circle : Circle}
    {call : Call}
    {fault : Fault}
    (sound : circle.Sound)
    (failed : circle.perform call = (circle, .error fault))
    (room : circle.HasRoom call)
    (nothing : circle.drawn call = []) :
    circle.Performed call := by
  refine ⟨?_, ?_, ?_, ?_, ?_⟩
  · rw [failed]
    simp [room]
  · rw [failed]
    exact Kept.refl sound
  · simp [nothing]
  · simp [nothing]
  · simp [nothing]

/-- A seal moves its chain on by one step, or leaves the circle. -/
theorem seal_performed
    {circle : Circle}
    (sound : circle.Sound)
    (circleId : Block 16)
    {plain : Bytes}
    (nonce : Block 64)
    (room : plain.length + 16 < 2 ^ 64) :
    circle.Performed (.seal circleId plain nonce) := by
  cases newest : circle.newest with
  | none =>
      exact Performed.of_error sound
        (by simp only [perform, Circle.seal, newest]; rfl)
        (by simp [HasRoom, newest])
        (by simp [drawn, newest])
  | some member =>
      have inside : member ∈ circle.members :=
        List.mem_of_mem_head? newest
      have version := sound.version member inside
      have chainFits := sound.chainFits member inside
      have stepFits := sound.stepFits member inside
      by_cases signs : Signs member circleId plain nonce
      · rcases sealFor_of_signs version chainFits stepFits room signs with
          ⟨bytes, sealed⟩
        by_cases isLast : member.link.step = 2 ^ 32 - 1
        · have overflows : member.link.advance = .trap :=
            Link.advance_eq_trap.mpr (by omega)
          have result :
              circle.perform (.seal circleId plain nonce) =
                (circle, .trap) := by
            simp only [perform, Circle.seal, newest, sealed, overflows,
              Outcome.map_trap]
          have nothing :
              circle.drawn (.seal circleId plain nonce) = [] := by
            simp [drawn, newest, sealed, overflows]
          refine ⟨?_, ?_, ?_, ?_, ?_⟩
          · rw [result]
            simp only [true_iff]
            exact fun has => has member newest signs isLast
          · rw [result]
            exact Kept.refl sound
          · simp [nothing]
          · simp [nothing]
          · simp [nothing]
        · have advanced :
              member.link.advance =
                .ok ⟨member.link.step + 1,
                  Derive.chainNext member.link.seed⟩ :=
            Link.advance_eq_ok.mpr ⟨by omega, rfl⟩
          have result :
              circle.perform (.seal circleId plain nonce) =
                (circle.store { member with
                  link := ⟨member.link.step + 1,
                    Derive.chainNext member.link.seed⟩ }, .ok ()) := by
            simp only [perform, Circle.seal, newest, sealed, advanced,
              Outcome.map_ok]
          have single :
              circle.drawn (.seal circleId plain nonce) =
                [Drawn.of member member.link] := by
            simp [drawn, newest, sealed, advanced]
          refine ⟨?_, ?_, ?_, ?_, ?_⟩
          · rw [result]
            simp only [reduceCtorEq, false_iff, not_not]
            intro found foundNewest _
            rw [newest] at foundNewest
            cases foundNewest
            exact isLast
          · rw [result]
            exact store_kept sound inside rfl rfl
              (Nat.le_succ member.link.step) (by simp only; omega)
          · rw [single]
            intro drawn isDrawn
            cases List.mem_singleton.mp isDrawn
            exact ⟨member, inside, rfl, rfl, Nat.le_refl _⟩
          · rw [single, result]
            intro _ drawn isDrawn other otherMember chain
            cases List.mem_singleton.mp isDrawn
            have isChanged :=
              @store_member circle sound member
                { member with
                  link := ⟨member.link.step + 1,
                    Derive.chainNext member.link.seed⟩ }
                other inside rfl otherMember chain
            rw [isChanged]
            exact Nat.lt_succ_self member.link.step
          · rw [single]
            exact List.pairwise_singleton ..
      · rcases sealFor_of_not_signs version signs with ⟨fault, failed⟩
        exact @Performed.of_error _ _ _ _ _ fault sound
          (by simp only [perform, Circle.seal, newest, failed]; rfl)
          (by
            intro found foundNewest foundSigns
            rw [newest] at foundNewest
            cases foundNewest
            exact absurd foundSigns signs)
          (by simp [drawn, newest, failed])

/-- A known, signed note of the right version is opened by its step. -/
theorem open_eq
    {circle : Circle}
    {note : Note}
    {member : Member}
    (found : circle.byChain note.chainId = some member)
    (version : note.version = member.version)
    (signed : note.signedBy member.signing = true) :
    circle.open note =
      match yieldFor member note.step with
      | .error fault => (circle, .error fault)
      | .trap => (circle, .trap)
      | .ok (yielded, member) =>
          (circle.store member,
            Cipher.cbcOpen yielded.keys.cipher yielded.keys.iv
              note.body) := by
  rcases result : yieldFor member note.step with
    ⟨yielded, changed⟩ | fault | _ <;>
    simp [Circle.open, found, version, signed, result]

/-- Opening a note its chain does not have to walk to. -/
theorem open_performed_of_not_reaches
    {circle : Circle}
    (sound : circle.Sound)
    {note : Note}
    {member : Member}
    (found : circle.byChain note.chainId = some member)
    (elsewhere : ¬ Reaches member note) :
    circle.Performed (.open note) := by
  have inside : member ∈ circle.members := List.mem_of_find?_eq_some found
  have nothing : circle.drawn (.open note) = [] := by
    simp [drawn, found, elsewhere]
  have room : circle.HasRoom (.open note) := by
    intro other otherFound reaches
    rw [found] at otherFound
    cases otherFound
    exact absurd reaches elsewhere
  by_cases version : note.version = member.version
  · by_cases signed : note.signedBy member.signing = true
    · by_cases ahead : member.link.step ≤ note.step
      · have far : maxForwardJump < note.step - member.link.step := by
          rcases Nat.lt_or_ge maxForwardJump
              (note.step - member.link.step) with far | near
          · exact far
          · exact absurd ⟨version, signed, ahead, near⟩ elsewhere
        have refused :
            yieldFor member note.step = .error .badMessage := by
          rw [yieldFor, if_neg (Nat.not_lt.mpr ahead), if_pos far]
        exact Performed.of_error sound
          (by
            rw [perform, open_eq found version signed, refused]
            rfl)
          room nothing
      · rcases yieldFor_behind (Nat.lt_of_not_le ahead) with
          replay | ⟨yielded, skipped, served⟩
        · exact Performed.of_error sound
            (by
              rw [perform, open_eq found version signed, replay]
              rfl)
            room nothing
        · have result :
              circle.perform (.open note) =
                (circle.store { member with skipped := skipped },
                  (fun _ => ()) <$>
                    Cipher.cbcOpen yielded.keys.cipher yielded.keys.iv
                      note.body) := by
            rw [perform, open_eq found version signed, served]
          refine ⟨?_, ?_, ?_, ?_, ?_⟩
          · rw [result]
            simp [room, Cipher.cbcOpen_ne_trap]
          · rw [result]
            exact store_kept sound inside rfl rfl (Nat.le_refl _)
              (sound.stepFits member inside)
          · simp [nothing]
          · simp [nothing]
          · simp [nothing]
    · exact Performed.of_error sound
        (by
          simp only [perform, Circle.open, found, version, signed,
            ne_eq, not_true_eq_false, if_false]
          rfl)
        room nothing
  · exact Performed.of_error sound
      (by
        simp only [perform, Circle.open, found]
        rw [if_pos version]
        rfl)
      room nothing

/-- Every key drawn on a walk is of the member's chain, at a step of the walk. -/
theorem drawn_of_reaches
    {circle : Circle}
    {note : Note}
    {member : Member}
    (parsed : note.Parsed)
    (found : circle.byChain note.chainId = some member)
    (reaches : Reaches member note) :
    (∀ drawn ∈ circle.drawn (.open note),
      member.chainId = drawn.chainId ∧
        member.signing = drawn.signing ∧
        member.link.step ≤ drawn.yielded.step ∧
        drawn.yielded.step ≤ note.step) ∧
      (circle.drawn (.open note)).Pairwise fun first second =>
        first.yielded.step < second.yielded.step := by
  rcases yieldFor_ahead reaches.ahead reaches.near parsed.stepFits with
    ⟨passed, last, skipped, walked, steps, _, _⟩
  have visited :
      circle.drawn (.open note) =
        (passed ++ [last]).map (Drawn.of member) := by
    simp only [drawn, found, if_pos reaches, walked]
  have drawnSteps :
      (circle.drawn (.open note)).map (·.yielded.step) =
        List.range' member.link.step
          (note.step - member.link.step + 1) := by
    rw [visited, List.map_map, ← steps]
    rfl
  constructor
  · intro drawn isDrawn
    have stepIn :
        drawn.yielded.step ∈
          List.range' member.link.step
            (note.step - member.link.step + 1) := by
      rw [← drawnSteps]
      exact List.mem_map_of_mem isDrawn
    rw [visited] at isDrawn
    rcases List.mem_map.mp isDrawn with ⟨link, _, rfl⟩
    rcases List.mem_range'_1.mp stepIn with ⟨lower, upper⟩
    have ahead := reaches.ahead
    exact ⟨rfl, rfl, lower, by omega⟩
  · apply List.pairwise_map.mp
    rw [drawnSteps]
    exact List.pairwise_lt_range'

/-- Opening a note by walking the chain to its step. -/
theorem open_performed_of_reaches
    {circle : Circle}
    (sound : circle.Sound)
    {note : Note}
    {member : Member}
    (parsed : note.Parsed)
    (found : circle.byChain note.chainId = some member)
    (reaches : Reaches member note) :
    circle.Performed (.open note) := by
  have inside : member ∈ circle.members := List.mem_of_find?_eq_some found
  rcases yieldFor_ahead reaches.ahead reaches.near parsed.stepFits with
    ⟨_, last, skipped, _, _, lastStep, served⟩
  obtain ⟨drawnSpec, drawnOrder⟩ := drawn_of_reaches parsed found reaches
  have drawnFrom :
      ∀ drawn ∈ circle.drawn (.open note),
        ∃ member ∈ circle.members,
          member.chainId = drawn.chainId ∧
            member.signing = drawn.signing ∧
            member.link.step ≤ drawn.yielded.step := by
    intro drawn isDrawn
    rcases drawnSpec drawn isDrawn with ⟨chain, signing, lower, _⟩
    exact ⟨member, inside, chain, signing, lower⟩
  by_cases isLast : note.step = 2 ^ 32 - 1
  · have overflows : last.advance = .trap :=
      Link.advance_eq_trap.mpr (by omega)
    have result : circle.perform (.open note) = (circle, .trap) := by
      rw [perform, open_eq found reaches.version reaches.signed,
        served, overflows]
      rfl
    have noRoom : ¬ circle.HasRoom (.open note) :=
      fun has => has member found reaches isLast
    refine ⟨?_, ?_, drawnFrom, ?_, drawnOrder⟩
    · rw [result]
      simp [noRoom]
    · rw [result]
      exact Kept.refl sound
    · exact fun has => absurd has noRoom
  · have advanced :
        last.advance =
          .ok ⟨last.step + 1, Derive.chainNext last.seed⟩ :=
      Link.advance_eq_ok.mpr
        ⟨by have fits := parsed.stepFits; omega, rfl⟩
    have result :
        circle.perform (.open note) =
          (circle.store { member with
              link := ⟨last.step + 1, Derive.chainNext last.seed⟩
              skipped := skipped },
            (fun _ => ()) <$>
              Cipher.cbcOpen last.yield.keys.cipher last.yield.keys.iv
                note.body) := by
      rw [perform, open_eq found reaches.version reaches.signed,
        served, advanced]
      rfl
    have room : circle.HasRoom (.open note) := fun _ _ _ => isLast
    have ahead := reaches.ahead
    have fits := parsed.stepFits
    refine ⟨?_, ?_, drawnFrom, ?_, drawnOrder⟩
    · rw [result]
      simp [room, Cipher.cbcOpen_ne_trap]
    · rw [result]
      exact store_kept sound inside rfl rfl
        (by simp only; omega) (by simp only; omega)
    · rw [result]
      intro _ drawn isDrawn other otherMember chain
      rcases drawnSpec drawn isDrawn with ⟨sameChain, _, _, upper⟩
      have isChanged :=
        @store_member circle sound member
          { member with
            link := ⟨last.step + 1, Derive.chainNext last.seed⟩
            skipped := skipped }
          other inside rfl otherMember (chain.trans sameChain.symm)
      rw [isChanged]
      simp only
      omega

/-- The step lemma: what any legal call does to a sound circle. -/
theorem performed
    {circle : Circle}
    (sound : circle.Sound)
    {call : Call}
    (legal : call.Legal) :
    circle.Performed call := by
  cases call with
  | announce circleId draw =>
      rcases announce_spec sound circleId draw with ⟨noTrap, kept⟩
      exact ⟨by simp [perform, HasRoom, noTrap], kept, by simp [drawn],
        by simp [drawn], by simp [drawn]⟩
  | admitAnnounce announcement =>
      rcases legal with ⟨data, read⟩
      have kept := admit_kept sound (Announce.parse_parsed read)
      exact ⟨by simp [perform, HasRoom], kept, by simp [drawn],
        by simp [drawn], by simp [drawn]⟩
  | «seal» circleId plain nonce =>
      exact seal_performed sound circleId nonce legal
  | «open» note =>
      rcases legal with ⟨data, read⟩
      cases found : circle.byChain note.chainId with
      | none =>
          exact Performed.of_error sound
            (by simp only [perform, Circle.open, found]; rfl)
            (by simp [HasRoom, found])
            (by simp [drawn, found])
      | some member =>
          by_cases reaches : Reaches member note
          · exact open_performed_of_reaches sound
              (Note.parse_parsed read) found reaches
          · exact open_performed_of_not_reaches sound found reaches

/-! ## What a run does -/

/-- The circle before the call of some index. -/
def stateAt (calls : List Call) (index : Nat) : Circle :=
  reached (calls.take index)

/-- The state behind one more call. -/
theorem stateAt_succ
    {calls : List Call}
    {index : Nat}
    {call : Call}
    (made : calls[index]? = some call) :
    stateAt calls (index + 1) = ((stateAt calls index).perform call).1 := by
  simp [stateAt, reached, List.take_add_one, made]

/-- The run lemma: every circle of a run of legal calls is sound. -/
theorem stateAt_sound
    {calls : List Call}
    (legal : ∀ call ∈ calls, call.Legal)
    (index : Nat) :
    (stateAt calls index).Sound := by
  induction index with
  | zero =>
      exact init_sound
  | succ index inductionHypothesis =>
      cases made : calls[index]? with
      | none =>
          have same : stateAt calls (index + 1) = stateAt calls index := by
            simp [stateAt, List.take_add_one, made]
          rw [same]
          exact inductionHypothesis
      | some call =>
          rw [stateAt_succ made]
          exact
            (performed inductionHypothesis
              (legal call (List.mem_of_getElem? made))).kept.sound

/-- A chain under a signing key has a member in every circle of a stretch. -/
def Stays
    (calls : List Call)
    (chainId : Nat)
    (signing : Curve.Public)
    (first last : Nat) :
    Prop :=
  ∀ index, first ≤ index → index ≤ last →
    ∃ member ∈ (stateAt calls index).members,
      member.chainId = chainId ∧ member.signing = signing

/-- While a member stays, its step does not decrease. -/
theorem step_le_of_stays
    {calls : List Call}
    (legal : ∀ call ∈ calls, call.Legal)
    {chainId : Nat}
    {signing : Curve.Public}
    {first distance : Nat}
    (inside : first + distance ≤ calls.length)
    (stays : Stays calls chainId signing first (first + distance))
    {old changed : Member}
    (oldMember : old ∈ (stateAt calls first).members)
    (oldChain : old.chainId = chainId ∧ old.signing = signing)
    (changedMember :
      changed ∈ (stateAt calls (first + distance)).members)
    (changedChain :
      changed.chainId = chainId ∧ changed.signing = signing) :
    old.link.step ≤ changed.link.step := by
  induction distance generalizing changed with
  | zero =>
      have same : old = changed :=
        (stateAt_sound legal first).unique oldMember changedMember
          (oldChain.1.trans changedChain.1.symm)
      rw [same]
  | succ distance inductionHypothesis =>
      have shorter : Stays calls chainId signing first (first + distance) :=
        fun index lower upper => stays index lower (by omega)
      rcases stays (first + distance) (by omega) (by omega) with
        ⟨middle, middleMember, middleChain⟩
      have upToMiddle :=
        inductionHypothesis (by omega) shorter middleMember middleChain
      have made : calls[first + distance]? =
          some calls[first + distance] :=
        List.getElem?_eq_getElem (by omega)
      have afterCall := changedMember
      rw [show first + (distance + 1) = first + distance + 1 by omega,
        stateAt_succ made] at afterCall
      have kept :=
        (performed (stateAt_sound legal (first + distance))
          (legal _ (List.mem_of_getElem? made))).kept
      exact Nat.le_trans upToMiddle
        (kept.forward middle middleMember changed afterCall
          ⟨middleChain.1.trans changedChain.1.symm,
            middleChain.2.trans changedChain.2.symm⟩)

/--
Group chains never wrap over a run: no call traps, a member that stays keeps
or advances its step, and while it stays no step of its chain is drawn twice.
-/
structure NeverWraps (calls : List Call) : Prop where
  noOverflow :
    ∀ index call,
      calls[index]? = some call →
        ((stateAt calls index).perform call).2 ≠ .trap
  forward :
    ∀ {chainId signing first last},
      first ≤ last →
      last ≤ calls.length →
      Stays calls chainId signing first last →
      ∀ old ∈ (stateAt calls first).members,
        old.chainId = chainId ∧ old.signing = signing →
        ∀ changed ∈ (stateAt calls last).members,
          changed.chainId = chainId ∧ changed.signing = signing →
          old.link.step ≤ changed.link.step
  drawnOnceInCall :
    ∀ index call,
      calls[index]? = some call →
        ((stateAt calls index).drawn call).Pairwise
          fun first second => first.yielded.step < second.yielded.step
  drawnOnce :
    ∀ {chainId signing first last earlierCall laterCall},
      first < last →
      calls[first]? = some earlierCall →
      calls[last]? = some laterCall →
      Stays calls chainId signing first last →
      ∀ earlier ∈ (stateAt calls first).drawn earlierCall,
        earlier.chainId = chainId ∧ earlier.signing = signing →
        ∀ later ∈ (stateAt calls last).drawn laterCall,
          later.chainId = chainId ∧ later.signing = signing →
          earlier.yielded.step < later.yielded.step

/--
A run of legal calls keeps its chains from wrapping exactly when each of its
calls has room where it is made.
-/
theorem neverWraps_iff
    {calls : List Call}
    (legal : ∀ call ∈ calls, call.Legal) :
    NeverWraps calls ↔
      ∀ index call,
        calls[index]? = some call →
          (stateAt calls index).HasRoom call := by
  have stepAt :
      ∀ {index call},
        calls[index]? = some call →
          (stateAt calls index).Performed call :=
    fun {index call} made =>
      performed (stateAt_sound legal index)
        (legal call (List.mem_of_getElem? made))
  constructor
  · intro safe index call made
    by_contra crowded
    exact safe.noOverflow index call made
      ((stepAt made).trap.mpr crowded)
  · intro room
    have forward :
        ∀ {chainId signing first last},
          first ≤ last →
          last ≤ calls.length →
          Stays calls chainId signing first last →
          ∀ old ∈ (stateAt calls first).members,
            old.chainId = chainId ∧ old.signing = signing →
            ∀ changed ∈ (stateAt calls last).members,
              changed.chainId = chainId ∧ changed.signing = signing →
              old.link.step ≤ changed.link.step := by
      intro chainId signing first last ordered inside stays old oldMember
        oldChain changed changedMember changedChain
      rcases Nat.le.dest ordered with ⟨distance, rfl⟩
      exact step_le_of_stays legal inside stays oldMember oldChain
        changedMember changedChain
    refine ⟨?_, forward, ?_, ?_⟩
    · intro index call made trapped
      exact (stepAt made).trap.mp trapped (room index call made)
    · intro index call made
      exact (stepAt made).drawnOrder
    · intro chainId signing first last earlierCall laterCall ordered
        earlierMade laterMade stays earlier earlierDrawn earlierChain
        later laterDrawn laterChain
      -- The member right after the first call, and the one the later
      -- key is drawn from.
      rcases stays (first + 1) (by omega) (by omega) with
        ⟨after, afterMember, afterChain⟩
      rcases (stepAt laterMade).drawnFrom later laterDrawn with
        ⟨source, sourceMember, sourceChain, sourceSigning, lower⟩
      have below : earlier.yielded.step < after.link.step := by
        have afterCall := afterMember
        rw [stateAt_succ earlierMade] at afterCall
        exact (stepAt earlierMade).drawnBelow
          (room first earlierCall earlierMade) earlier earlierDrawn after
          afterCall (afterChain.1.trans earlierChain.1.symm)
      have between : after.link.step ≤ source.link.step :=
        forward ordered
          (Nat.le_of_lt (List.getElem?_eq_some_iff.mp laterMade).1)
          (fun index lower upper => stays index (by omega) upper)
          after afterMember afterChain source sourceMember
          ⟨sourceChain.trans laterChain.1,
            sourceSigning.trans laterChain.2⟩
      omega

end Runs

section Examples

open Sample

attribute [local instance] hashes curves aes

/-- The draw of a sample chain. -/
def sampleDraw : Draw :=
  ⟨Block.fill 4 7, Block.fill 32 1, Block.fill 32 2⟩

/-- A chain is announced and one note is sealed. -/
def sampleRun : List Call :=
  [.announce (Block.zero 16) sampleDraw,
    .seal (Block.zero 16) [1, 2, 3] (Block.zero 64)]

/-- The sample run stays clear of the last step. -/
theorem sampleRun_neverWraps : NeverWraps sampleRun := by
  have legal : ∀ call ∈ sampleRun, call.Legal := by
    simp [sampleRun, Call.Legal]
  refine (neverWraps_iff legal).mpr ?_
  intro index call made
  match index, made with
  | 0, made =>
      cases made
      exact True.intro
  | 1, made =>
      cases made
      intro member newest _
      have stands :
          (stateAt sampleRun 1).newest.map (·.link.step) = some 0 := by
        decide
      rw [newest, Option.map_some, Option.some.injEq] at stands
      omega

/-- An announcement whose chain stands at the last step. -/
def lastAnnounce : Announce :=
  { version := Post.version
    circleId := Block.zero 16
    chainId := 7
    step := 2 ^ 32 - 1
    seed := Block.fill 32 2
    signing := ⟨Block.fill 32 1⟩
    bytes :=
      Announce.encode Post.version (Block.zero 16) 7 (2 ^ 32 - 1)
        (Block.fill 32 2) ⟨Block.fill 32 1⟩ }

theorem lastNote_longEnough :
    1 + Curve.signatureLength ≤
      (Note.signed Post.version (Block.zero 16) 7 (2 ^ 32 - 1) [] ++
        (Block.zero 64).bytes).length := by
  simp [Note.signed, Curve.signatureLength]
  omega

/-- A signed note of that step. -/
def lastNote : Note :=
  { version := Post.version
    circleId := Block.zero 16
    chainId := 7
    step := 2 ^ 32 - 1
    body := []
    bytes :=
      Note.signed Post.version (Block.zero 16) 7 (2 ^ 32 - 1) [] ++
        (Block.zero 64).bytes
    longEnough := lastNote_longEnough }

/-- Opening the first note of a chain announced at the last step traps. -/
theorem lastNote_not_neverWraps :
    (∀ call ∈ [Call.admitAnnounce lastAnnounce, Call.open lastNote],
        call.Legal) ∧
      ¬ NeverWraps
        [Call.admitAnnounce lastAnnounce, Call.open lastNote] := by
  refine ⟨?_, ?_⟩
  · intro call member
    simp only [List.mem_cons, List.not_mem_nil, or_false] at member
    rcases member with rfl | rfl
    · exact ⟨lastAnnounce.bytes,
        Announce.make_eq_ok _ _ _ (by decide) (by decide)⟩
    · rcases Note.parse_signed (Block.zero 16) (Block.zero 64)
          (show 7 < 2 ^ 32 by decide)
          (show 2 ^ 32 - 1 < 2 ^ 32 by decide)
          (show ([] : Bytes).length < 2 ^ 64 by decide) with
        ⟨_, parsed⟩
      exact ⟨lastNote.bytes, parsed⟩
  · intro safe
    exact safe.noOverflow 1 (.open lastNote) rfl (by decide)

end Examples

end Gossveil.Circle
