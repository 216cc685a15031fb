import AbiEmu.Tty.BsdTermios

/-!
# The speeds of BSD (`abi/svr4/termios.c`)

`bsd_to_linux_speed` takes the first rate of `speed_map` that is high enough, which is the
smallest, as the table is sorted. `bsd_to_linux_termios` puts the code into `c_cflag` without
taking `CBAUDEX` out of it, so after 57600 baud or more a lower speed gets a wrong code.
-/

namespace AbiEmu.Tty

/-- What `bsd_to_linux_speed` promises for a requested speed. -/
structure SpeedRight (beyond : Nat → Word) (s : Word) : Prop where
  smallest : s ≤ 38400 → ∃ i r, bsdToLinuxSpeed s = BitVec.ofNat 32 i ∧ speedMap[i]? = some r ∧
    s ≤ r ∧ ∀ r' ∈ speedMap, s ≤ r' → r ≤ r'
  above : 38400 < s → bsdToLinuxSpeed s =
    if s = 57600 then B57600 else if s = 115200 then B115200 else B38400
  monotone : ∀ s', s ≤ s' → s' ≤ 38400 → bsdToLinuxSpeed s ≤ bsdToLinuxSpeed s'
  back : s ∈ speedMap ++ [57600, 115200] → linuxToBsdSpeed beyond (bsdToLinuxSpeed s) = s

theorem speedMap_sorted {i j : Nat} (hi : i < speedMap.length) (hj : j < speedMap.length)
    (hij : i ≤ j) : speedMap[i] ≤ speedMap[j] := by
  have hsorted : speedMap.Pairwise (· ≤ ·) := by decide
  rcases hij.eq_or_lt with rfl | hlt
  · exact BitVec.le_refl _
  · exact List.pairwise_iff_getElem.mp hsorted i j hi hj hlt

/-- Up to 38400 the code is the first entry that is high enough. -/
theorem speed_index {s : Word} (h : s ≤ 38400) :
    ∃ i, ∃ hi : i < speedMap.length, bsdToLinuxSpeed s = BitVec.ofNat 32 i ∧ s ≤ speedMap[i] ∧
      ∀ j, ∀ hj : j < speedMap.length, s ≤ speedMap[j] → i ≤ j := by
  have hsome : (speedMap.findIdx? (s ≤ ·)).isSome = true := by
    rw [List.findIdx?_isSome, List.any_eq_true]
    exact ⟨38400, by decide, decide_eq_true h⟩
  obtain ⟨i, hfind⟩ := Option.isSome_iff_exists.mp hsome
  obtain ⟨hi, hle, hfirst⟩ := List.findIdx?_eq_some_iff_getElem.mp hfind
  refine ⟨i, hi, ?_, of_decide_eq_true hle, fun j hj hs => ?_⟩
  · unfold bsdToLinuxSpeed
    rw [if_neg (by bv_omega), if_neg (by bv_omega), hfind]
  · exact not_lt.mp fun hlt => hfirst j hlt (decide_eq_true hs)

theorem speed_right (beyond : Nat → Word) (s : Word) : SpeedRight beyond s where
  smallest h := by
    obtain ⟨i, hi, hcode, hle, hfirst⟩ := speed_index h
    refine ⟨i, _, hcode, List.getElem?_eq_getElem hi, hle, fun r hr hs => ?_⟩
    obtain ⟨j, hj, rfl⟩ := List.getElem_of_mem hr
    exact speedMap_sorted hi hj (hfirst j hj hs)
  above h := by
    have hnone : speedMap.findIdx? (s ≤ ·) = none := by
      apply List.findIdx?_eq_none_iff.mpr
      intro r hr
      obtain ⟨j, hj, rfl⟩ := List.getElem_of_mem hr
      have hmax : speedMap[j] ≤ 38400 :=
        speedMap_sorted hj (j := 15) (by decide) (Nat.le_of_lt_succ hj)
      exact decide_eq_false (by bv_omega)
    unfold bsdToLinuxSpeed
    rw [hnone]
  monotone s' hs h' := by
    obtain ⟨i, hi, hcode, -, hfirst⟩ := speed_index (BitVec.le_trans hs h')
    obtain ⟨i', hi', hcode', hle', -⟩ := speed_index h'
    have hii := hfirst i' hi' (BitVec.le_trans hs hle')
    have hlen : i' < 16 := hi'
    rw [hcode, hcode']
    bv_omega
  back h := by
    revert s
    show ∀ s ∈ speedMap ++ [57600, 115200], _
    simp only [speedMap, List.cons_append, List.nil_append, List.forall_mem_cons]
    exact ⟨rfl, rfl, rfl, rfl, rfl, rfl, rfl, rfl, rfl, rfl, rfl, rfl, rfl, rfl, rfl, rfl, rfl, rfl,
      nofun⟩

/-- What the set call leaves of the code that was set before. -/
theorem cbaud_set (c temp o i : Word) :
    (bsdToLinuxCflag c temp ||| (o &&& CBAUD ||| (i &&& CBAUD) <<< 16)) &&& CBAUD =
      c &&& 0o10000 ||| o &&& CBAUD := by
  unfold bsdToLinuxCflag CBAUD CRTSCTS
  ext j hj
  dsimp only
  split <;> interval_cases j <;> simp

/-- A code stays as it is beside what is left, if that is nothing or part of it. -/
theorem extended_iff (c s : Word) :
    c &&& 0o10000 ||| bsdToLinuxSpeed s = bsdToLinuxSpeed s ↔
      (c &&& 0o10000 ≠ 0 → s = 57600 ∨ s = 115200) := by
  have hbit : c &&& 0o10000 = if c.getLsbD 12 then 0o10000 else 0#32 := BitVec.and_twoPow c 12
  rw [hbit]
  unfold bsdToLinuxSpeed
  split
  · split_ifs with h1 h2
    · exact iff_of_true rfl fun _ => .inl h1
    · exact iff_of_true rfl fun _ => .inr h2
    · refine iff_of_false ?_ fun h => (h (by decide)).elim h1 h2
      split
      next i hi =>
        have hlt : i < 16 := (List.findIdx?_eq_some_iff_findIdx_eq.mp hi).1
        interval_cases i <;> decide
      · decide
  · rw [BitVec.zero_or]
    exact iff_of_true rfl fun h => absurd rfl h

/-- The speeds are translated as promised; the code that reaches the kernel is the one asked
for exactly if `CBAUDEX` was not on or belongs to the new code. -/
theorem bsd_speed_right_iff (pg : Pages) (tcgets : Int × Termios) (it : Word) (m : Mem)
    (beyond : Nat → Word) :
    (∀ s, SpeedRight beyond s) ∧ (∀ t, bsdToLinuxTermios pg tcgets it m = .ok t →
      t.cCflag &&& CBAUD = bsdToLinuxSpeed (pg.getUser m (it + 40))) ↔
    (pg.verifyRead it bsdTermiosSize = true → tcgets.1 = 0 →
      (pg.copyBytesFromUser (it + 16) BSD_NCCS m).isSome = true →
      tcgets.2.cCflag &&& 0o10000 ≠ 0 →
      pg.getUser m (it + 40) = 57600 ∨ pg.getUser m (it + 40) = 115200) := by
  rw [and_iff_right (speed_right beyond), ← extended_iff]
  unfold bsdToLinuxTermios
  split_ifs with hv h0
  · exact iff_of_true (nofun) fun _ h => absurd h h0
  · rw [forall_prop_of_true hv, forall_prop_of_true (not_not.mp h0)]
    cases pg.copyBytesFromUser (it + 16) BSD_NCCS m with
    | none => exact iff_of_true (nofun) nofun
    | some cc =>
      have hset := cbaud_set tcgets.2.cCflag (pg.getUser m (it + 8))
        (bsdToLinuxSpeed (pg.getUser m (it + 40))) (bsdToLinuxSpeed (pg.getUser m (it + 36)))
      rw [bsdToLinuxSpeed_code, bsdToLinuxSpeed_code] at hset
      rw [← hset]
      exact ⟨fun h _ => h _ rfl, fun h t ht => Except.ok.inj ht ▸ h rfl⟩
  · exact iff_of_true (nofun) fun h => absurd h hv

/-- From 57600 baud to 0, which hangs up: `CBAUDEX` stays on. -/
theorem extended_speed_kept :
    ¬ ∀ t, bsdToLinuxTermios .everywhere (0, ⟨0, 0, B57600, 0, 0, fun _ => 0⟩) 0x1000
      (fun _ => 0) = .ok t → t.cCflag &&& CBAUD = bsdToLinuxSpeed 0 :=
  fun h => absurd (h _ rfl) (by decide)

end AbiEmu.Tty
