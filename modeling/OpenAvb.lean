import OpenAvb.Gptp.BestMaster
import OpenAvb.Gptp.Persist
import OpenAvb.Mrpd.FrameBounds
import OpenAvb.Mrpd.Alignment
import OpenAvb.Mrpd.MsrpContain
import OpenAvb.Endpoint.Follow
import OpenAvb.Endpoint.ClientCommand
import OpenAvb.Endpoint.Accounting
import OpenAvb.Pipeline.Avtp
import OpenAvb.Pipeline.Resync
import OpenAvb.Pipeline.ItemStores
import OpenAvb.Common.Eui64Set
import OpenAvb.Gptp.TicketingLock
import OpenAvb.Mrpd.UnknownType
import OpenAvb.Mrpd.LeaveAll
import OpenAvb.Gptp.TimeArithmetic
import OpenAvb.Pipeline.MediaQFifo
import OpenAvb.Pipeline.FileTalkers
import OpenAvb.Pipeline.RefClock
import OpenAvb.Pipeline.Queue
import OpenAvb.Pipeline.Util
import OpenAvb.Maap.Protocol
import OpenAvb.Pipeline.TxRing
import OpenAvb.Mrpd.Notification
