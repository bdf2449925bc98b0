import ParcaAgent.Pprof.CacheCalls
import ParcaAgent.Debuginfo.Receipts
import ParcaAgent.Vdso.Symbolizer
