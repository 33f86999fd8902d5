import HypervisorTrace.Event.Definition

/-!
Events of hardware-assisted guests: entry and exit of the virtual machine, the handlers that serve
an exit, and emulated timers and interrupt controllers. An id with the wide flag has addresses of
64 bits.
-/

namespace HypervisorTrace.Event.Catalogue.Hvm

def transitions : List Definition :=
  [ silent 0x00081001 "VMENTRY",
    event 0x00081002 "VMEXIT" 2 ["exitcode = ", .hex 8 0, ", rIP  = ", .hex 8 1],
    event 0x00081102 "VMEXIT" 3 ["exitcode = ", .hex 8 0, ", rIP  = ", .wide 2 1],
    silent 0x00081401 "nVMENTRY",
    event 0x00081402 "nVMEXIT" 2 ["exitcode = ", .hex 8 0, ", rIP  = ", .hex 8 1],
    event 0x00081502 "nVMEXIT" 3 ["exitcode = ", .hex 8 0, ", rIP  = ", .wide 2 1] ]

def handlers : List Definition :=
  [ event 0x00082001 "PF_XEN" 2 ["errorcode = ", .hex 2 1, ", virt = ", .hex 8 0],
    event 0x00082101 "PF_XEN" 3 ["errorcode = ", .hex 2 2, ", virt = ", .wide 1 0],
    event 0x00082002 "PF_INJECT" 2 ["errorcode = ", .hex 2 0, ", virt = ", .hex 8 1],
    event 0x00082102 "PF_INJECT" 3 ["errorcode = ", .hex 2 0, ", virt = ", .wide 2 1],
    event 0x00082003 "INJ_EXC" 2 ["vector = ", .hex 2 0, ", errorcode = ", .hex 4 1],
    event 0x00082004 "INJ_VIRQ" 2 ["vector = ", .hex 2 0, ", fake = ", .signed 1],
    event 0x00082005 "REINJ_VIRQ" 1 ["vector = ", .hex 2 0],
    event 0x00082006 "IO_READ" 2 ["port = ", .hex 4 0, ", size = ", .signed 1],
    event 0x00082007 "IO_WRITE" 2 ["port = ", .hex 4 0, ", size = ", .signed 1],
    event 0x00082008 "CR_READ" 2 ["CR# = ", .signed 0, ", value = ", .hex 8 1],
    event 0x00082108 "CR_READ" 3 ["CR# = ", .signed 0, ", value = ", .wide 2 1],
    event 0x00082009 "CR_WRITE" 2 ["CR# = ", .signed 0, ", value = ", .hex 8 1],
    event 0x00082109 "CR_WRITE" 3 ["CR# = ", .signed 0, ", value = ", .wide 2 1],
    silent 0x0008200a "DR_READ",
    silent 0x0008200b "DR_WRITE",
    event 0x0008200c "MSR_READ" 3 ["MSR# = ", .hex 8 0, ", value = ", .wide 2 1],
    event 0x0008200d "MSR_WRITE" 3 ["MSR# = ", .hex 8 0, ", value = ", .wide 2 1],
    event 0x0008200e "CPUID" 5
        ["func = ", .hex 8 0, ", eax = ", .hex 8 1, ", ebx = ", .hex 8 2, ", ecx=", .hex 8 3,
         ", edx = ", .hex 8 4],
    event 0x0008200f "INTR" 1 ["vector = ", .hex 2 0],
    silent 0x00082010 "NMI",
    silent 0x00082011 "SMI",
    event 0x00082012 "VMMCALL" 1 ["func = ", .hex 8 0],
    event 0x00082013 "HLT" 1 ["intpending = ", .signed 0],
    event 0x00082014 "INVLPG" 2 ["is invlpga? = ", .signed 0, ", virt = ", .hex 8 1],
    event 0x00082114 "INVLPG" 3 ["is invlpga? = ", .signed 0, ", virt = ", .wide 2 1],
    silent 0x00082015 "MCE",
    event 0x00082016 "IOPORT_READ" 2 ["port = ", .hex 4 0, ", data = ", .hex 8 1],
    event 0x00082216 "IOPORT_WRITE" 2 ["port = ", .hex 4 0, ", data = ", .hex 8 1],
    event 0x00082017 "MMIO_READ" 2 ["port = ", .hex 8 0, ", data = ", .hex 8 1],
    event 0x00082217 "MMIO_WRITE" 2 ["port = ", .hex 8 0, ", data = ", .hex 8 1],
    silent 0x00082018 "CLTS",
    event 0x00082019 "LMSW" 1 ["value = ", .hex 8 0],
    event 0x00082119 "LMSW" 2 ["value = ", .wide 1 0],
    event 0x0008201a "RDTSC" 2 ["value = ", .wide 1 0],
    event 0x00082020 "INTR_WINDOW" 1 ["value = ", .hex 8 0],
    event 0x00082021 "NPF" 6
        ["gpa = ", .wide 1 0, " mfn = ", .wide 3 2, " qual = ", .hex 4 4, " p2mt = ", .hex 4 5],
    event 0x00082023 "TRAP" 1 ["vector = ", .hex 2 0] ]

def emulation : List Definition :=
  [ event 0x00084001 "hpet" 6
        ["create [ tn = ", .signed 0, ", irq = ", .signed 1, ", delta = ", .wide 3 2,
         ", period = ", .wide 5 4, " ]"],
    event 0x00084002 "pit" 2 ["create [ delta = ", .hex 16 0, ", period = ", .hex 16 1, " ]"],
    event 0x00084003 "rtc" 2 ["create [ delta = ", .hex 16 0, ", period = ", .hex 16 1, " ]"],
    event 0x00084004 "vlapic" 5
        ["create [ delta = ", .wide 1 0, ", period = ", .wide 3 2, ", irq = ", .signed 4, " ]"],
    event 0x00084005 "hpet" 1 ["destroy [ tn = ", .signed 0, " ]"],
    event 0x00084006 "pit" 0 ["destroy [ ]"],
    event 0x00084007 "rtc" 0 ["destroy [ ]"],
    event 0x00084008 "vlapic" 0 ["destroy [ ]"],
    event 0x00084009 "pit" 0 ["callback [ ]"],
    event 0x0008400a "vlapic" 0 ["callback [ ]"],
    event 0x0008400b "vpic_update_int_output" 3
        ["int_output = ", .signed 0, ", is_master = ", .signed 1, ", irq = ", .signed 2],
    event 0x0008400c "vpic" 1 ["vcpu_kick [ irq = ", .signed 0, " ]"],
    event 0x0008400d "__vpic_intack" 2 ["is_master = ", .signed 0, ", irq = ", .signed 1],
    event 0x0008400e "vpic_irq_positive_edge" 1 ["irq = ", .signed 0],
    event 0x0008400f "vpic_irq_negative_edge" 1 ["irq = ", .signed 0],
    event 0x00084010 "vpic_ack_pending_irq" 2
        ["accept_pic_intr = ", .signed 0, ", int_output = ", .signed 1],
    event 0x00084011 "vlapic_accept_pic_intr" 2
        ["i8259_target = ", .signed 0, ", accept_pic_int = ", .signed 1] ]

def table (id : Word) : List Definition :=
  if Id.subclass id = 0x1 then transitions
  else if Id.subclass id = 0x2 then handlers
  else if Id.subclass id = 0x4 then emulation
  else []

end HypervisorTrace.Event.Catalogue.Hvm
