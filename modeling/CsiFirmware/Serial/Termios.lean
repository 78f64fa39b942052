import CsiFirmware.DataStructure
import CsiFirmware.Lib.MaskedWord

/-!
# Line settings of a serial port

Reference: `Serial_485.cpp`, from `set_baudrate` to `set_port_attr`.

The terminal settings are the four flag words and the control characters of Linux. The functions
clear and raise bits of them; `framing` reads the character format back out of the control flags.
The speed is stored by the C library, which `SpeedLibrary` stands for.
-/

namespace CsiFirmware.Serial

open MaskedWord

/-! ## Flags -/

/-- The mask of the number of data bits. -/
def csize : BitVec 32 := 0x30
/-- Five data bits. -/
def cs5 : BitVec 32 := 0x00
/-- Six data bits. -/
def cs6 : BitVec 32 := 0x10
/-- Seven data bits. -/
def cs7 : BitVec 32 := 0x20
/-- Eight data bits. -/
def cs8 : BitVec 32 := 0x30
/-- Two stop bits instead of one. -/
def cstopb : BitVec 32 := 0x40
/-- A parity bit. -/
def parenb : BitVec 32 := 0x100
/-- An odd parity bit. -/
def parodd : BitVec 32 := 0x200
/-- `CBAUD`, which on Linux contains `CBAUDEX`. -/
def cbaud : BitVec 32 := 0x100f

/-- The eighth bit of input is stripped. -/
def istrip : BitVec 32 := 0x20
/-- A line feed of input becomes a carriage return. -/
def inlcr : BitVec 32 := 0x40
/-- A carriage return of input is dropped. -/
def igncr : BitVec 32 := 0x80
/-- A carriage return of input becomes a line feed. -/
def icrnl : BitVec 32 := 0x100
/-- Input can stop the output. -/
def ixon : BitVec 32 := 0x400
/-- Any character starts it again. -/
def ixany : BitVec 32 := 0x800
/-- Output stops the input. -/
def ixoff : BitVec 32 := 0x1000
/-- Where glibc notes that the input speed is zero. -/
def ibaud0 : BitVec 32 := 0x80000000

/-- Output is processed. -/
def opost : BitVec 32 := 0x1

/-- Input can raise signals. -/
def isig : BitVec 32 := 0x1
/-- Input is handed on line by line. -/
def icanon : BitVec 32 := 0x2
/-- Input is written back. -/
def echo : BitVec 32 := 0x8
/-- An erase character erases what was written back. -/
def echoe : BitVec 32 := 0x10

/-- Where `c_cc` has the time a read waits for. -/
def vtime : Fin 32 := 5
/-- Where `c_cc` has the least number of bytes of a read. -/
def vmin : Fin 32 := 6

/-- `struct termios`. -/
structure Termios where
  cIflag : BitVec 32
  cOflag : BitVec 32
  cCflag : BitVec 32
  cLflag : BitVec 32
  cCc : Fin 32 → UInt8
  cIspeed : BitVec 32
  cOspeed : BitVec 32

/-- A speed was stored: in the members and the bits set aside for it. -/
structure StoresSpeed (opt opt' : Termios) : Prop where
  cflag : AgreeOff cbaud opt'.cCflag opt.cCflag
  iflag : AgreeOff ibaud0 opt'.cIflag opt.cIflag
  oflag : opt'.cOflag = opt.cOflag
  lflag : opt'.cLflag = opt.cLflag
  cc : opt'.cCc = opt.cCc

/-- `cfsetispeed` and `cfsetospeed`. -/
structure SpeedLibrary where
  cfsetispeed : BitVec 32 → Termios → Termios
  cfsetospeed : BitVec 32 → Termios → Termios
  storesInput : ∀ speed opt, StoresSpeed opt (cfsetispeed speed opt)
  storesOutput : ∀ speed opt, StoresSpeed opt (cfsetospeed speed opt)

/-! ## The setters -/

/-- `set_baudrate`: the number is passed on as the speed. -/
def setBaudrate (lib : SpeedLibrary) (baudrate : Int) (opt : Termios) : Termios :=
  let opt := lib.cfsetispeed (BitVec.ofInt 32 baudrate) opt
  lib.cfsetospeed (BitVec.ofInt 32 baudrate) opt

/-- The conversion of `databit` to `unsigned int` changes no comparison. -/
def setDataBit (databit : Int) (opt : Termios) : Termios :=
  let opt := { opt with cCflag := clear csize opt.cCflag }
  match databit with
  | 8 => { opt with cCflag := raise cs8 opt.cCflag }
  | 7 => { opt with cCflag := raise cs7 opt.cCflag }
  | 6 => { opt with cCflag := raise cs6 opt.cCflag }
  | 5 => { opt with cCflag := raise cs5 opt.cCflag }
  | _ => { opt with cCflag := raise cs8 opt.cCflag }

/-- Without parity `PARODD` stays as it was. -/
def setParity (parity : String) (opt : Termios) : Termios :=
  if parity = "N" ∨ parity = "n" then { opt with cCflag := clear parenb opt.cCflag }
  else if parity = "E" ∨ parity = "e" then
    let opt := { opt with cCflag := raise parenb opt.cCflag }
    { opt with cCflag := clear parodd opt.cCflag }
  else if parity = "O" ∨ parity = "o" then
    let opt := { opt with cCflag := raise parenb opt.cCflag }
    { opt with cCflag := raise parodd opt.cCflag }
  else { opt with cCflag := clear parenb opt.cCflag }

/-- `stopbit.c_str()` ends at the first NUL. -/
def cStr (s : String) : List Char := s.toList.takeWhile (· ≠ '\x00')

/-- `set_stopbit`. One and a half is taken for one. -/
def setStopbit (stopbit : String) (opt : Termios) : Termios :=
  if cStr stopbit = "1".toList then { opt with cCflag := clear cstopb opt.cCflag }
  else if cStr stopbit = "1.5".toList then { opt with cCflag := clear cstopb opt.cCflag }
  else if cStr stopbit = "2".toList then { opt with cCflag := raise cstopb opt.cCflag }
  else { opt with cCflag := clear cstopb opt.cCflag }

/-- `set_port_attr` on the settings `tcgetattr` read; `tcsetattr` writes the result back. The `int`
values of `VTIME` and `VMIN` are stored in bytes. -/
def setPortAttr (lib : SpeedLibrary) (param : SerialParamInfo) (opt : Termios) : Termios :=
  let opt := setBaudrate lib param.baudrate opt
  let opt := setDataBit param.databit opt
  let opt := setParity param.parity opt
  let opt := setStopbit param.stopbit opt
  { opt with
    cIflag := clear (ixon ||| ixoff ||| ixany) opt.cIflag
    cOflag := clear opost opt.cOflag
    cLflag := clear (icanon ||| echo ||| echoe ||| isig) opt.cLflag
    cCc := Function.update (Function.update opt.cCc vtime (UInt8.ofInt param.vtime)) vmin
      (UInt8.ofInt param.vmin) }

/-! ## Input bytes -/

/-- What a terminal with these input flags hands on for a byte that it receives: the eighth bit may
be stripped, a carriage return dropped or turned into a line feed, and a line feed turned into a
carriage return. -/
def inputByte (iflag : BitVec 32) (b : UInt8) : List UInt8 :=
  let b := if iflag &&& istrip = 0 then b else b &&& 0x7F
  if b = 0x0D then
    if iflag &&& igncr ≠ 0 then []
    else if iflag &&& icrnl ≠ 0 then [0x0A]
    else [b]
  else if b = 0x0A ∧ iflag &&& inlcr ≠ 0 then [0x0D]
  else [b]

/-! ## Character formats -/

/-- What is transmitted behind the data bits. -/
inductive Parity where
  | none
  | even
  | odd
deriving DecidableEq

/-- How a character is transmitted. -/
structure Framing where
  dataBits : ℕ
  parity : Parity
  stopBits : ℕ
deriving DecidableEq

/-- What the control flags mean to the driver. -/
def framing (cflag : BitVec 32) : Framing :=
  { dataBits := 5 + ((cflag &&& csize) >>> 4).toNat
    parity :=
      if cflag &&& parenb = 0 then .none
      else if cflag &&& parodd = 0 then .even
      else .odd
    stopBits := if cflag &&& cstopb = 0 then 1 else 2 }

/-- What the parameters of a port ask for. Anything but 5, 6 or 7 data bits is 8, any unknown parity
is none, and anything but two stop bits is one. -/
def requested (param : SerialParamInfo) : Framing :=
  { dataBits := if param.databit = 5 ∨ param.databit = 6 ∨ param.databit = 7 then
      param.databit.toNat else 8
    parity :=
      if param.parity = "E" ∨ param.parity = "e" then .even
      else if param.parity = "O" ∨ param.parity = "o" then .odd
      else .none
    stopBits := if cStr param.stopbit = "2".toList then 2 else 1 }

/-- The settings `after` are those of a raw line with the given parameters, and whatever they do not
concern is as it was before. -/
structure Configured (param : SerialParamInfo) (before after : Termios) : Prop where
  framing : framing after.cCflag = requested param
  noFlowControl : after.cIflag &&& (ixon ||| ixoff ||| ixany) = 0
  noProcessing : after.cOflag &&& opost = 0
  raw : after.cLflag &&& (icanon ||| echo ||| echoe ||| isig) = 0
  time : after.cCc vtime = UInt8.ofInt param.vtime
  least : after.cCc vmin = UInt8.ofInt param.vmin
  cflag : AgreeOff (cbaud ||| csize ||| parenb ||| parodd ||| cstopb) after.cCflag before.cCflag
  iflag : AgreeOff (ibaud0 ||| ixon ||| ixoff ||| ixany) after.cIflag before.cIflag
  oflag : AgreeOff opost after.cOflag before.cOflag
  lflag : AgreeOff (icanon ||| echo ||| echoe ||| isig) after.cLflag before.cLflag
  cc : ∀ i, i ≠ vtime → i ≠ vmin → after.cCc i = before.cCc i

/-- Configuring a port again leaves nothing of the parameters before. -/
theorem Configured.trans {param param' : SerialParamInfo} {a b c : Termios}
    (h : Configured param a b) (h' : Configured param' b c) : Configured param' a c :=
  { h' with
    cflag := h'.cflag.trans h.cflag
    iflag := h'.iflag.trans h.iflag
    oflag := h'.oflag.trans h.oflag
    lflag := h'.lflag.trans h.lflag
    cc := fun i hi hi' => (h'.cc i hi hi').trans (h.cc i hi hi') }

/-! ## What the setters do -/

/-- Of the settings, only control flags under the mask change. -/
structure SetsControl (m : BitVec 32) (opt opt' : Termios) : Prop where
  cflag : AgreeOff m opt'.cCflag opt.cCflag
  iflag : opt'.cIflag = opt.cIflag
  oflag : opt'.cOflag = opt.cOflag
  lflag : opt'.cLflag = opt.cLflag
  cc : opt'.cCc = opt.cCc

/-- A change of control flags. -/
theorem SetsControl.of_touches {m : BitVec 32} {f : BitVec 32 → BitVec 32} (h : Touches m f)
    (opt : Termios) : SetsControl m opt { opt with cCflag := f opt.cCflag } :=
  ⟨h opt.cCflag, rfl, rfl, rfl, rfl⟩

/-- Two changes, one after the other. -/
theorem SetsControl.trans {m m' : BitVec 32} {a b c : Termios} (h : SetsControl m a b)
    (h' : SetsControl m' b c) : SetsControl (m' ||| m) a c where
  cflag := h'.cflag.trans_or h.cflag
  iflag := h'.iflag.trans h.iflag
  oflag := h'.oflag.trans h.oflag
  lflag := h'.lflag.trans h.lflag
  cc := h'.cc.trans h.cc

/-- Both speeds are stored, and nothing else. -/
theorem setBaudrate_storesSpeed (lib : SpeedLibrary) (baudrate : Int) (opt : Termios) :
    StoresSpeed opt (setBaudrate lib baudrate opt) := by
  have hin := lib.storesInput (BitVec.ofInt 32 baudrate) opt
  have hout := lib.storesOutput (BitVec.ofInt 32 baudrate)
    (lib.cfsetispeed (BitVec.ofInt 32 baudrate) opt)
  exact
    { cflag := hout.cflag.trans hin.cflag
      iflag := hout.iflag.trans hin.iflag
      oflag := hout.oflag.trans hin.oflag
      lflag := hout.lflag.trans hin.lflag
      cc := hout.cc.trans hin.cc }

/-- `set_data_bit` touches the size only. -/
theorem setDataBit_sets (databit : Int) (opt : Termios) :
    SetsControl csize opt (setDataBit databit opt) := by
  -- clearing the field and raising bits of it stays within the field
  have hassign (v : BitVec 32) (hv : v &&& csize = v) :
      Touches csize fun x => raise v (clear csize x) :=
    ((touches_raise v).mono hv).comp (touches_clear csize)
  unfold setDataBit
  split <;> exact SetsControl.of_touches (hassign _ (by decide)) opt

/-- The size it sets. -/
theorem setDataBit_read (databit : Int) (opt : Termios) :
    5 + (((setDataBit databit opt).cCflag &&& csize) >>> 4).toNat =
      if databit = 5 ∨ databit = 6 ∨ databit = 7 then databit.toNat else 8 := by
  unfold setDataBit
  split
  case h_5 h8 h7 h6 h5 =>
      rw [if_neg (by rintro (h | h | h) <;> simp_all), raise_clear_read]
      decide
  all_goals
    rw [raise_clear_read]
    decide

/-- `set_parity` touches the two parity bits only. -/
theorem setParity_sets (parity : String) (opt : Termios) :
    SetsControl (parenb ||| parodd) opt (setParity parity opt) := by
  have hclear (v : BitVec 32) (hv : v &&& (parenb ||| parodd) = v) :
      Touches (parenb ||| parodd) (clear v) := (touches_clear v).mono hv
  have hraise (v : BitVec 32) (hv : v &&& (parenb ||| parodd) = v) :
      Touches (parenb ||| parodd) (raise v) := (touches_raise v).mono hv
  rw [setParity]
  split_ifs
  · exact .of_touches (hclear parenb (by decide)) opt
  · exact .of_touches ((hclear parodd (by decide)).comp (hraise parenb (by decide))) opt
  · exact .of_touches ((hraise parodd (by decide)).comp (hraise parenb (by decide))) opt
  · exact .of_touches (hclear parenb (by decide)) opt

/-- The parity it sets. -/
theorem setParity_read (parity : String) (opt : Termios) :
    (if (setParity parity opt).cCflag &&& parenb = 0 then Parity.none
      else if (setParity parity opt).cCflag &&& parodd = 0 then .even
      else .odd) =
      if parity = "E" ∨ parity = "e" then .even
      else if parity = "O" ∨ parity = "o" then .odd
      else .none := by
  have hon : parenb ≠ 0 := by decide
  by_cases hnone : parity = "N" ∨ parity = "n"
  · rw [setParity, if_pos hnone, if_pos (clear_read (by decide) _), if_neg, if_neg]
    · rcases hnone with rfl | rfl <;> decide
    · rcases hnone with rfl | rfl <;> decide
  rw [setParity, if_neg hnone]
  by_cases heven : parity = "E" ∨ parity = "e"
  · -- the bit for odd parity is not the one that turns parity on
    have henb : clear parodd (raise parenb opt.cCflag) &&& parenb = parenb :=
      ((touches_clear parodd).read (by decide) _).trans (raise_read (by decide) _)
    rw [if_pos heven, if_pos heven, henb, if_neg hon, if_pos (clear_read (by decide) _)]
  rw [if_neg heven, if_neg heven]
  by_cases hodd : parity = "O" ∨ parity = "o"
  · have henb : raise parodd (raise parenb opt.cCflag) &&& parenb = parenb :=
      ((touches_raise parodd).read (by decide) _).trans (raise_read (by decide) _)
    rw [if_pos hodd, if_pos hodd, henb, if_neg hon, raise_read (by decide), if_neg (by decide)]
  · rw [if_neg hodd, if_neg hodd, if_pos (clear_read (by decide) _)]

/-- `set_stopbit` touches the stop bits only. -/
theorem setStopbit_sets (stopbit : String) (opt : Termios) :
    SetsControl cstopb opt (setStopbit stopbit opt) := by
  rw [setStopbit]
  split_ifs
  · exact .of_touches (touches_clear cstopb) opt
  · exact .of_touches (touches_clear cstopb) opt
  · exact .of_touches (touches_raise cstopb) opt
  · exact .of_touches (touches_clear cstopb) opt

/-- The number of stop bits it sets. -/
theorem setStopbit_read (stopbit : String) (opt : Termios) :
    (if (setStopbit stopbit opt).cCflag &&& cstopb = 0 then 1 else 2) =
      if cStr stopbit = "2".toList then 2 else 1 := by
  have hclear := clear_read (show cstopb &&& cstopb = cstopb by decide) opt.cCflag
  by_cases htwo : cStr stopbit = "2".toList
  · have hone : ¬ cStr stopbit = "1".toList := by rw [htwo]; decide
    have hhalf : ¬ cStr stopbit = "1.5".toList := by rw [htwo]; decide
    rw [setStopbit, if_neg hone, if_neg hhalf, if_pos htwo, if_pos htwo,
      raise_read (by decide), if_neg (by decide)]
  · rw [setStopbit, if_neg htwo]
    split_ifs <;> rfl

/-- `set_port_attr` makes the line what the parameters ask for, whatever it was. -/
theorem configured_setPortAttr (lib : SpeedLibrary) (param : SerialParamInfo) (opt : Termios) :
    Configured param opt (setPortAttr lib param opt) := by
  have hspeed := setBaudrate_storesSpeed lib param.baudrate opt
  set opt₁ := setBaudrate lib param.baudrate opt with hopt₁
  have hsize := setDataBit_sets param.databit opt₁
  have hsizeRead := setDataBit_read param.databit opt₁
  set opt₂ := setDataBit param.databit opt₁ with hopt₂
  have hparity := setParity_sets param.parity opt₂
  have hparityRead := setParity_read param.parity opt₂
  set opt₃ := setParity param.parity opt₂ with hopt₃
  have hstop := setStopbit_sets param.stopbit opt₃
  have hstopRead := setStopbit_read param.stopbit opt₃
  set opt₄ := setStopbit param.stopbit opt₃ with hopt₄
  have hattr : setPortAttr lib param opt =
      { opt₄ with
        cIflag := clear (ixon ||| ixoff ||| ixany) opt₄.cIflag
        cOflag := clear opost opt₄.cOflag
        cLflag := clear (icanon ||| echo ||| echoe ||| isig) opt₄.cLflag
        cCc := Function.update (Function.update opt₄.cCc vtime (UInt8.ofInt param.vtime)) vmin
          (UInt8.ofInt param.vmin) } := rfl
  rw [hattr]
  -- a later setter leaves what an earlier one has set
  have hkeepSize : opt₄.cCflag &&& csize = opt₂.cCflag &&& csize :=
    (hstop.cflag.read (by decide)).trans (hparity.cflag.read (by decide))
  have hkeepEnb : opt₄.cCflag &&& parenb = opt₃.cCflag &&& parenb :=
    hstop.cflag.read (by decide)
  have hkeepOdd : opt₄.cCflag &&& parodd = opt₃.cCflag &&& parodd :=
    hstop.cflag.read (by decide)
  have hcontrol := (hsize.trans hparity).trans hstop
  have hcc (i) : opt₄.cCc i = opt.cCc i := by rw [hcontrol.cc, hspeed.cc]
  have hiflag : AgreeOff ibaud0 opt₄.cIflag opt.cIflag := hcontrol.iflag ▸ hspeed.iflag
  constructor
  case framing =>
    simp only [framing, requested, hkeepSize, hkeepEnb, hkeepOdd]
    rw [hsizeRead, hparityRead, hstopRead]
  case noFlowControl => exact clear_read (by decide) _
  case noProcessing => exact clear_read (by decide) _
  case raw => exact clear_read (by decide) _
  case time =>
    dsimp only
    rw [Function.update_of_ne (by decide), Function.update_self]
  case least =>
    dsimp only
    rw [Function.update_self]
  case cflag =>
    exact (hcontrol.cflag.mono (by decide)).trans (hspeed.cflag.mono (by decide))
  case iflag =>
    exact ((touches_clear _ _).mono (by decide)).trans (hiflag.mono (by decide))
  case oflag =>
    rw [hcontrol.oflag, hspeed.oflag]
    exact touches_clear _ _
  case lflag =>
    rw [hcontrol.lflag, hspeed.lflag]
    exact touches_clear _ _
  case cc =>
    intro i htime hmin
    dsimp only
    rw [Function.update_of_ne hmin, Function.update_of_ne htime, hcc]

/-- With `ICRNL` alone, a carriage return becomes a line feed. -/
theorem inputByte_icrnl (b : UInt8) :
    inputByte icrnl b = [if b = 0x0D then 0x0A else b] := by
  have hstrip : icrnl &&& istrip = 0 := by decide
  have hcr : icrnl &&& igncr = 0 := by decide
  have hcrnl : icrnl &&& icrnl ≠ 0 := by decide
  have hnlcr : icrnl &&& inlcr = 0 := by decide
  rw [inputByte, if_pos hstrip]
  by_cases hb : b = 0x0D
  · rw [if_pos hb, if_pos hb, if_neg (not_not.mpr hcr), if_pos hcrnl]
  · rw [if_neg hb, if_neg hb, if_neg fun h => h.2 hnlcr]

/-- What becomes of input bytes is left as it was found: a driver that sets `ICRNL`, as Linux
drivers do, goes on handing on line feeds for carriage returns. -/
theorem inputByte_setPortAttr (lib : SpeedLibrary) (param : SerialParamInfo) (opt : Termios) :
    inputByte (setPortAttr lib param opt).cIflag = inputByte opt.cIflag := by
  -- none of the four flags is among those that are cleared
  have hiflag := (configured_setPortAttr lib param opt).iflag
  have hstrip := hiflag.read (r := istrip) (by decide)
  have hcr := hiflag.read (r := igncr) (by decide)
  have hcrnl := hiflag.read (r := icrnl) (by decide)
  have hnlcr := hiflag.read (r := inlcr) (by decide)
  funext b
  simp only [inputByte, hstrip, hcr, hcrnl, hnlcr]

end CsiFirmware.Serial
