import HypervisorTrace.Event.Definition

/-!
Scheduler events, in three tiers: changes of the run state of a guest, the core of the scheduler,
and the scheduling algorithms, each of which has a table of its own.
-/

namespace HypervisorTrace.Event.Catalogue.Scheduler

/-- A change of run state. Its word packs the domain and the virtual processor. -/
def runState (id : Word) (name : String) : Definition :=
  event id name 1 ["dom:vcpu = ", .hex 8 0]

/-- Changes of run state: the last two hexadecimal digits but one are the old and the new state. -/
def runStates : List Definition :=
  [ runState 0x00021002 "continue_running",
    runState 0x00021011 "running_to_runnable",
    runState 0x00021021 "running_to_blocked",
    runState 0x00021031 "running_to_offline",
    runState 0x00021101 "runnable_to_running",
    runState 0x00021121 "runnable_to_blocked",
    runState 0x00021131 "runnable_to_offline",
    runState 0x00021201 "blocked_to_running",
    runState 0x00021211 "blocked_to_runnable",
    runState 0x00021231 "blocked_to_offline",
    runState 0x00021301 "offline_to_running",
    runState 0x00021311 "offline_to_runnable",
    runState 0x00021321 "offline_to_blocked" ]

def core : List Definition :=
  [ event 0x00028001 "sched_add_domain" 1 ["domid = ", .hex 8 0],
    event 0x00028002 "sched_rem_domain" 1 ["domid = ", .hex 8 0],
    event 0x00028003 "domain_sleep" 2 ["dom:vcpu = ", .guest 0],
    event 0x00028004 "domain_wake" 2 ["dom:vcpu = ", .guest 0],
    event 0x00028005 "do_yield" 2 ["dom:vcpu = ", .guest 0],
    event 0x00028006 "do_block" 2 ["dom:vcpu = ", .guest 0],
    event 0x00028007 "domain_shutdown" 3 ["dom:vcpu = ", .guest 0, ", reason = ", .hex 8 2],
    silent 0x00028008 "sched_ctl",
    event 0x00028009 "sched_adjdom" 1 ["domid = ", .hex 8 0],
    event 0x0002800a "__enter_scheduler" 4
        ["prev<dom:vcpu> = ", .guest 0, ", next<dom:vcpu> = ", .guest 2],
    silent 0x0002800b "s_timer_fn",
    silent 0x0002800c "t_timer_fn",
    silent 0x0002800d "dom_timer_fn",
    event 0x0002800e "switch_infprev" 3 ["dom:vcpu = ", .guest 0, ", runtime = ", .signed 2],
    event 0x0002800f "switch_infnext" 4
        ["new_dom:vcpu = ", .guest 0, ", time = ", .signed 2, ", r_time = ", .signed 3],
    event 0x00028010 "domain_shutdown_code" 3 ["dom:vcpu = ", .guest 0, ", reason = ", .hex 8 2],
    event 0x00028011 "switch_infcont" 4
        ["dom:vcpu = ", .guest 0, ", runtime = ", .signed 2, ", r_time = ", .signed 3] ]

def credit : List Definition :=
  [ silent 0x00022001 "csched:sched_tasklet",
    event 0x00022002 "csched:account_start" 3 ["dom:vcpu = ", .guest 0, ", active = ", .signed 2],
    event 0x00022003 "csched:account_stop" 3 ["dom:vcpu = ", .guest 0, ", active = ", .signed 2],
    event 0x00022004 "csched:stolen_vcpu" 3 ["dom:vcpu = ", .guest 1, ", from = ", .signed 0],
    event 0x00022005 "csched:picked_cpu" 3 ["dom:vcpu = ", .guest 0, ", cpu = ", .signed 2],
    event 0x00022006 "csched:tickle" 1 ["cpu = ", .signed 0],
    event 0x00022007 "csched:boost" 2 ["dom:vcpu = ", .guest 0],
    event 0x00022008 "csched:unboost" 2 ["dom:vcpu = ", .guest 0],
    event 0x00022009 "csched:schedule" 1 ["cpu[16]:tasklet[8]:idle[8] = ", .bare 8 0],
    event 0x0002200a "csched:ratelimit" 2 ["dom:vcpu = ", .hex 8 0, ", runtime = ", .signed 1],
    event 0x0002200b "csched:steal_check" 2 ["peer_cpu = ", .signed 0, ", checked = ", .signed 1] ]

def credit2 : List Definition :=
  [ silent 0x00022201 "csched2:tick",
    event 0x00022202 "csched2:runq_pos" 2 ["[ dom:vcpu = ", .hex 8 0, ", pos = ", .signed 1, "]"],
    event 0x00022203 "csched2:credit_burn" 4
        ["burn [ dom:vcpu = ", .hex 8 0, ", credit = ", .signed 1, ", budget = ", .signed 2,
         ", delta = ", .signed 3, " ]"],
    silent 0x00022204 "csched2:credit_add",
    event 0x00022205 "csched2:tickle_check" 3
        ["dom:vcpu = ", .hex 8 0, ", credit = ", .signed 1, ", score = ", .signed 2],
    event 0x00022206 "csched2:tickle" 1 ["cpu = ", .signed 0],
    event 0x00022207 "csched2:credit_reset" 3
        ["dom:vcpu = ", .hex 8 0, ", cr_start = ", .signed 1, ", cr_end = ", .signed 2],
    silent 0x00022208 "csched2:sched_tasklet",
    silent 0x00022209 "csched2:update_load",
    event 0x0002220a "csched2:runq_assign" 2 ["dom:vcpu = ", .hex 8 0, ", rq_id = ", .signed 1],
    event 0x0002220b "csched2:updt_vcpu_load" 4
        ["dom:vcpu = ", .hex 8 2, ", vcpuload = ", .wide 1 0, ", wshift = ", .signed 3],
    event 0x0002220c "csched2:updt_runq_load" 5
        ["rq_load[16]:rq_id[8]:wshift[8] = ", .hex 8 4, ", rq_avgload = ", .wide 1 0,
         ", b_avgload = ", .wide 3 2],
    event 0x0002220d "csched2:tickle_new" 3
        ["dom:vcpu = ", .hex 8 0, ", processor = ", .signed 1, " credit = ", .signed 2],
    event 0x0002220e "csched2:runq_max_weight" 1 ["rq_id[16]:max_weight[16] = ", .hex 8 0],
    event 0x0002220f "csched2:migrrate" 2
        ["dom:vcpu = ", .hex 8 0, ", rq_id[16]:trq_id[16] = ", .hex 8 1],
    event 0x00022210 "csched2:load_check" 2
        ["lrq_id[16]:orq_id[16] = ", .hex 8 0, ", delta = ", .signed 1],
    event 0x00022211 "csched2:load_balance" 5
        ["l_bavgload = ", .wide 1 0, ", o_bavgload = ", .wide 3 2,
         ", lrq_id[16]:orq_id[16] = ", .hex 8 4],
    event 0x00022212 "csched2:pick_cpu" 4
        ["b_avgload = ", .wide 1 0, ", dom:vcpu = ", .hex 8 2, ", rq_id[16]:new_cpu[16] = ",
         .signed 3],
    event 0x00022213 "csched2:runq_candidate" 3
        ["dom:vcpu = ", .hex 8 0, ", credit = ", .signed 2, ", tickled_cpu = ", .signed 1],
    event 0x00022214 "csched2:schedule" 2
        ["rq:cpu = ", .hex 8 0, ", tasklet[8]:idle[8]:smt_idle[8]:tickled[8] = ", .bare 8 1],
    event 0x00022215 "csched2:ratelimit" 2 ["dom:vcpu = ", .hex 8 0, ", runtime = ", .signed 1],
    event 0x00022216 "csched2:runq_cand_chk" 1 ["dom:vcpu = ", .hex 8 0] ]

def realTime : List Definition :=
  [ event 0x00022801 "rtds:tickle" 1 ["cpu = ", .signed 0],
    event 0x00022802 "rtds:runq_pick" 5
        ["dom:vcpu = ", .hex 8 0, ", cur_deadline = ", .wide 2 1, ", cur_budget = ", .wide 4 3],
    event 0x00022803 "rtds:burn_budget" 4
        ["dom:vcpu = ", .hex 8 0, ", cur_budget = ", .wide 2 1, ", delta = ", .signed 3],
    event 0x00022804 "rtds:repl_budget" 5
        ["dom:vcpu = ", .hex 8 0, ", cur_deadline = ", .wide 2 1, ", cur_budget = ", .wide 4 3],
    silent 0x00022805 "rtds:sched_tasklet",
    event 0x00022806 "rtds:schedule" 1 ["cpu[16]:tasklet[8]:idle[4]:tickled[4] = ", .bare 8 0] ]

/-- The algorithm that gives each virtual processor one of its own. -/
def fixedPlacement : List Definition :=
  [ event 0x00022a01 "null:pick_cpu" 2 ["dom:vcpu = ", .hex 8 0, ", new_cpu = ", .signed 1],
    event 0x00022a02 "null:assign" 2 ["dom:vcpu = ", .hex 8 0, ", cpu = ", .signed 1],
    event 0x00022a03 "null:deassign" 2 ["dom:vcpu = ", .hex 8 0, ", cpu = ", .signed 1],
    event 0x00022a04 "null:migrate" 2 ["dom:vcpu = ", .hex 8 0, ", new_cpu:cpu = ", .hex 8 1],
    event 0x00022a05 "null:schedule" 2
        ["cpu[16]:tasklet[16] = ", .bare 8 0, ", dom:vcpu = ", .hex 8 1],
    silent 0x00022a06 "null:sched_tasklet" ]

def algorithmTable (algorithm : Word) : List Definition :=
  if algorithm = 0 then credit
  else if algorithm = 1 then credit2
  else if algorithm = 4 then realTime
  else if algorithm = 5 then fixedPlacement
  else []

def table (id : Word) : List Definition :=
  if Id.subclass id = 0x1 then runStates
  else if Id.subclass id = 0x8 then core
  else if Id.subclass id = 0x2 then algorithmTable (Id.algorithm id)
  else []

end HypervisorTrace.Event.Catalogue.Scheduler
